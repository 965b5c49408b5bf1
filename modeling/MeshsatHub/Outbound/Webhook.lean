import MeshsatHub.Foundations.Runs
import MeshsatHub.Outbound.Netguard

/-!
# Delivery of a webhook

`Dispatcher.deliver` of `internal/webhook/outbound.go` as seen from the network: the check of the
target with its one lookup, then the attempts, in each of which the HTTP client looks the host up
anew for every connection and follows redirects, at most ten. The hook of the dialer, where one is
set, is asked before every connection; `deliver` sets none.
-/

namespace MeshsatHub.Outbound
open Runs List

structure Config where
  allowPrivate : Bool
  /-- The switch the dispatcher's own tests set. -/
  allowLoopback : Bool

structure Target where
  url : String
  maxRetries : Int

structure LogEntry where
  attempt : Nat
  statusCode : Nat
  failed : Bool

/-- What the delivery does next. -/
inductive Stage where
  | check
  | attempt (n : Nat)
  | connect (n : Nat) (url : URL) (hops : Nat)
  | dialing (n : Nat) (url : URL) (hops : Nat) (answer : List IP)
  | waiting (n : Nat) (url : URL) (hops : Nat)
  | done
  deriving DecidableEq

structure Delivery where
  stage : Stage
  /-- What the check's lookup answered. -/
  checked : List IP
  /-- The addresses connections were opened to. -/
  opened : List IP
  logs : List LogEntry

inductive Event where
  /-- The name server answers, or fails to. -/
  | lookup (answer : Option (List IP))
  | issue
  | reuse
  /-- The client tries an address of the answer. -/
  | dial (ip : IP) (connected : Bool)
  | respond (status : Nat) (location : Option String)
  | fail
  deriving DecidableEq

/-- What the client asks the dialer's hook. -/
abbrev Hook := Option (IP → Bool)

/-- The client of `deliver`. -/
def plainClient : Hook := none

variable (cfg : Config)

def hookAllows (hook : Hook) (ip : IP) : Bool :=
  match hook with
  | some allows => allows ip
  | none => true

namespace Delivery

def goTo (d : Delivery) (stage : Stage) : Delivery := { d with stage := stage }

def log (d : Delivery) (entry : LogEntry) : Delivery := { d with logs := d.logs ++ [entry] }

/-- After an attempt that failed comes the next one, while retries are left. -/
def retry (d : Delivery) (target : Target) (n : Nat) : Delivery :=
  d.goTo (if (n : Int) + 1 ≤ target.maxRetries then .attempt (n + 1) else .done)

variable (lib : Library)

def answers (host : String) (answer : Option (List IP)) : Bool :=
  match lib.parseIP host with
  | some ip => answer = some [ip]
  | none => true

variable (target : Target) (d : Delivery)

def check (answer : Option (List IP)) : Option Delivery :=
  match targetHost lib cfg.allowPrivate target.url with
  | .error _ => none
  | .ok host =>
    if answers lib host answer then
      match checkAnswer cfg.allowPrivate host answer with
      | .error _ => some ((d.log ⟨0, 0, true⟩).goTo .done)
      | .ok () =>
        some
          { d with
            checked := answer.getD []
            stage := if 0 ≤ target.maxRetries then .attempt 0 else .done }
    else none

def skipCheck : Option Delivery :=
  if cfg.allowLoopback then
    some (d.goTo (if 0 ≤ target.maxRetries then .attempt 0 else .done))
  else
    match targetHost lib cfg.allowPrivate target.url with
    | .error _ => some ((d.log ⟨0, 0, true⟩).goTo .done)
    | .ok _ => none

def send (target : Target) (n : Nat) (url : URL) (hops : Nat) : Delivery :=
  if (url.scheme = "http" ∨ url.scheme = "https") ∧ url.host ≠ "" then
    d.goTo (.connect n url hops)
  else (d.log ⟨n, 0, true⟩).retry target n

def isRedirect (status : Nat) : Bool := status ∈ [301, 302, 303, 307, 308]

/-- A response is a redirect to follow, or ends the attempt. -/
def receive (n : Nat) (url : URL) (hops : Nat)
    (status : Nat) (location : Option String) : Delivery :=
  match location with
  | some loc =>
    if isRedirect status then
      match lib.resolveReference url loc with
      | none => (d.log ⟨n, 0, true⟩).retry target n
      | some url' =>
        if hops + 1 < 10 then d.send target n url' (hops + 1)
        else (d.log ⟨n, 0, true⟩).retry target n
    else if status < 400 then (d.log ⟨n, status, false⟩).goTo .done
    else (d.log ⟨n, status, false⟩).retry target n
  | none =>
    if status < 400 then (d.log ⟨n, status, false⟩).goTo .done
    else (d.log ⟨n, status, false⟩).retry target n

end Delivery

def step (lib : Library) (hook : Hook) (target : Target) (d : Delivery)
    (e : Event) : Option Delivery :=
  match d.stage, e with
  | .check, .lookup answer => if cfg.allowLoopback then none else d.check cfg lib target answer
  | .check, .issue => d.skipCheck cfg lib target
  | .attempt n, .issue =>
    match lib.parseURL target.url with
    | none => some ((d.log ⟨n, 0, true⟩).goTo .done)
    | some url => some (d.send target n url 0)
  | .connect n url hops, .lookup answer =>
    if Delivery.answers lib url.host answer then
      match answer with
      | none => some ((d.log ⟨n, 0, true⟩).retry target n)
      | some ips => some (d.goTo (.dialing n url hops ips))
    else none
  | .connect n url hops, .reuse =>
    if d.opened = [] then none else some (d.goTo (.waiting n url hops))
  | .dialing n url hops answer, .dial ip connected =>
    if ip ∈ answer then
      if hookAllows hook ip then
        some
          { d with
            opened := ip :: d.opened
            stage := if connected then .waiting n url hops else .dialing n url hops answer }
      else some d
    else none
  | .waiting n url hops, .respond status location =>
    some (d.receive lib target n url hops status location)
  | .connect n _ _, .fail => some ((d.log ⟨n, 0, true⟩).retry target n)
  | .dialing n _ _ _, .fail => some ((d.log ⟨n, 0, true⟩).retry target n)
  | .waiting n _ _, .fail => some ((d.log ⟨n, 0, true⟩).retry target n)
  | _, _ => none

def initial : Delivery := ⟨.check, [], [], []⟩

variable {cfg : Config} {lib : Library} {hook : Hook} {target : Target} {d d' : Delivery}
  {e : Event}

/-- The addresses of the answer the client is working through. -/
def Stage.candidates : Stage → List IP
  | .dialing _ _ _ answer => answer
  | _ => []

/-- What the check was answered with, what is at hand and what was opened is public. -/
structure Delivery.Public (d : Delivery) : Prop where
  checked : ∀ ip ∈ d.checked, isPublicIP ip
  opened : ∀ ip ∈ d.opened, isPublicIP ip
  candidates : ∀ ip ∈ d.stage.candidates, isPublicIP ip

/-- The lookup for a connection is answered with public addresses, or with those
the check was answered with. -/
def steady (d : Delivery) : Event → Bool
  | .lookup (some ips) =>
    match d.stage with
    | .connect _ _ _ => ips.all fun ip => isPublicIP ip || decide (ip ∈ d.checked)
    | _ => true
  | _ => true

section
variable (h : d.Public)
include h

namespace Delivery

theorem Public.goTo {stage : Stage} (hs : stage.candidates = []) : (d.goTo stage).Public :=
  ⟨h.checked, h.opened, fun ip hip => by
    rw [show (d.goTo stage).stage = stage from rfl, hs] at hip
    cases hip⟩

theorem Public.log (entry : LogEntry) : (d.log entry).Public :=
  ⟨h.checked, h.opened, h.candidates⟩

theorem Public.retry (n : Nat) : (d.retry target n).Public := by
  apply h.goTo
  split <;> rfl

theorem Public.send (n : Nat) (url : URL) (hops : Nat) : (d.send target n url hops).Public := by
  rw [Delivery.send]
  split
  · exact h.goTo rfl
  · exact (h.log _).retry n

theorem Public.receive (n : Nat) (url : URL) (hops status : Nat) (location : Option String) :
    (d.receive lib target n url hops status location).Public := by
  have hfinal : ∀ entry, (if status < 400 then (d.log entry).goTo .done
      else (d.log entry).retry target n).Public := by
    intro entry
    split
    · exact (h.log entry).goTo rfl
    · exact (h.log entry).retry n
  cases location with
  | none => exact hfinal _
  | some loc =>
    simp only [Delivery.receive]
    split
    · split
      · exact (h.log _).retry n
      · split
        · exact h.send n _ _
        · exact (h.log _).retry n
    · exact hfinal _

theorem Public.check (hprivate : cfg.allowPrivate = false)
    {answer : Option (List IP)} (hstep : d.check cfg lib target answer = some d') :
    d'.Public := by
  revert hstep
  fun_cases Delivery.check cfg lib target d answer with rintro ⟨⟩
  | case2 => exact (h.log _).goTo rfl
  | case3 _ _ _ hok =>
    obtain ⟨ips, rfl, hips⟩ := checkAnswer_ok hok
    simp only [reachable, hprivate, Bool.false_eq_true, if_false] at hips
    refine ⟨hips, h.opened, fun ip hip => ?_⟩
    split at hip <;> cases hip

theorem Public.skipCheck (hstep : d.skipCheck cfg lib target = some d') : d'.Public := by
  rw [Delivery.skipCheck] at hstep
  split at hstep
  · cases hstep
    apply h.goTo
    split <;> rfl
  · split at hstep
    · cases hstep
      exact (h.log _).goTo rfl
    · cases hstep

end Delivery

/-- A steady step opens public addresses only. -/
theorem step_public (hprivate : cfg.allowPrivate = false) (hok : steady d e)
    (hstep : step cfg lib hook target d e = some d') : d'.Public := by
  revert hstep
  fun_cases step cfg lib hook target d e with
  | case2 => exact h.check hprivate
  | case3 => exact h.skipCheck
  | case4 =>
    rintro ⟨⟩
    exact (h.log _).goTo rfl
  | case5 n =>
    rintro ⟨⟩
    exact h.send n _ 0
  | case7 n url hops hstage ips =>
    rintro ⟨⟩
    refine ⟨h.checked, h.opened, fun ip hip => ?_⟩
    simp only [steady, hstage, all_eq_true, Bool.or_eq_true, decide_eq_true_eq] at hok
    exact (hok ip hip).elim id (h.checked ip)
  | case10 =>
    rintro ⟨⟩
    exact h.goTo rfl
  | case11 n url hops answer ip connected hstage hmem hallows =>
    rintro ⟨⟩
    have hcandidates := h.candidates
    rw [hstage] at hcandidates
    refine ⟨h.checked, ?_, ?_⟩
    · intro ip' hip'
      obtain rfl | hip' := mem_cons.1 hip'
      · exact hcandidates _ hmem
      · exact h.opened ip' hip'
    · cases connected with
      | true =>
        intro ip' hip'
        cases hip'
      | false => exact hcandidates
  | case12 =>
    rintro ⟨⟩
    exact h
  | case14 n url hops status location =>
    rintro ⟨⟩
    exact h.receive n url hops status location
  | case6 n | case15 n | case16 n | case17 n =>
    rintro ⟨⟩
    exact (h.log _).retry n
  | case1 | case8 | case9 | case13 | case18 => rintro ⟨⟩

end

theorem initial_public : initial.Public := ⟨nofun, nofun, nofun⟩

/-- An answer that is not steady lets the client of `deliver` open a connection to
an address that is not public. -/
theorem opened_of_not_steady {e : Event} (hbad : steady d e = false)
    (hstep : step cfg lib plainClient target d e = some d') :
    ∃ d'', Reaches (step cfg lib plainClient target) (fun _ _ => True) d' d'' ∧
      ∃ ip ∈ d''.opened, isPublicIP ip = false := by
  obtain ⟨stage, checked, opened, logs⟩ := d
  cases e with
  | lookup answer =>
    cases answer with
    | none => cases hbad
    | some ips =>
      cases stage with
      | connect n url hops =>
        simp only [steady, all_eq_false, Bool.or_eq_true, decide_eq_true_eq, not_or] at hbad
        obtain ⟨ip, hip, hnot, _⟩ := hbad
        simp only [step] at hstep
        split at hstep
        · cases hstep
          refine ⟨⟨.waiting n url hops, checked, ip :: opened, logs⟩,
            Reaches.tail (.dial ip true) Reaches.refl trivial ?_,
            ip, mem_cons_self, by simpa using hnot⟩
          simp [step, Delivery.goTo, hip, hookAllows, plainClient]
        · cases hstep
      | check | attempt | dialing | waiting | done => cases hbad
  | issue | reuse | dial | respond | fail => cases hbad

/-- With private targets not allowed: in every steady run of a delivery each
address a connection is opened to is public, and after any answer that is not
steady the delivery can go on to open a connection to an address that is not. -/
theorem webhook_connections_public (cfg : Config) (hprivate : cfg.allowPrivate = false)
    (lib : Library) (target : Target) :
    (∀ d, Reaches (step cfg lib plainClient target) (fun d e => steady d e = true) initial d →
        ∀ ip ∈ d.opened, isPublicIP ip = true) ∧
      ∀ d e d', steady d e = false → step cfg lib plainClient target d e = some d' →
        ∃ d'', Reaches (step cfg lib plainClient target) (fun _ _ => True) d' d'' ∧
          ∃ ip ∈ d''.opened, isPublicIP ip = false := by
  refine ⟨fun d hrun => ?_, fun d e d' hbad hstep => opened_of_not_steady hbad hstep⟩
  exact (hrun.invariant initial_public
    fun _ _ _ h hok hstep => step_public h hprivate hok hstep).opened

/-- A parser for the two hosts of the example, and literals for none. -/
def exampleLibrary : Library where
  parseURL raw := if raw = "http://hook.example/in" then some ⟨"http", "hook.example"⟩ else none
  parseIP _ := none
  toLower s := s
  resolveReference _ loc :=
    if loc = "http://moved.example/" then some ⟨"http", "moved.example"⟩ else none

def exampleTarget : Target := ⟨"http://hook.example/in", 3⟩

def publicAddress : IP := .v4 (octets 93 184 216 34)

/-- An error, a second attempt, and a redirect to another public host. -/
def redirected : List Event :=
  [.lookup (some [publicAddress]), .issue, .lookup (some [publicAddress]),
    .dial publicAddress true, .respond 500 none, .issue, .reuse,
    .respond 307 (some "http://moved.example/"), .lookup (some [.v4 (octets 198 51 100 7)]),
    .dial (.v4 (octets 198 51 100 7)) true, .respond 200 none]

/-- The delivery is made over two public addresses. -/
theorem webhook_connections_public_redirected :
    ∃ d, Reaches (step ⟨false, false⟩ exampleLibrary plainClient exampleTarget)
        (fun d e => steady d e = true) initial d ∧
      d.stage = .done ∧ d.opened.length = 2 ∧ ∀ ip ∈ d.opened, isPublicIP ip = true := by
  simpa only [and_assoc] using exists_reaches_and_of_decide
    (P := fun d => d.stage = .done ∧ d.opened.length = 2) redirected (by decide +kernel)
    (webhook_connections_public ⟨false, false⟩ rfl exampleLibrary exampleTarget).1

/-- The name server answers the check with a public address and the connection
with the Hub's own. -/
theorem rebound_name_reaches_loopback :
    ∃ d, Reaches (step ⟨false, false⟩ exampleLibrary plainClient exampleTarget)
        (fun _ _ => True) initial d ∧
      ∃ ip ∈ d.opened, isPublicIP ip = false := by
  exact exists_reaches_of_decide
    [.lookup (some [publicAddress]), .issue, .lookup (some [.v4 (octets 127 0 0 1)]),
      .dial (.v4 (octets 127 0 0 1)) true]
    (by decide +kernel)

end MeshsatHub.Outbound
