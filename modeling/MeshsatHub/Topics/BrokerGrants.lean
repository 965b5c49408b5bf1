import MeshsatHub.Topics.Shapes

/-!
# What the broker lets a bridge publish

The allow and deny lists of `internal/bridge/natsauth.go`. A topic is read as a subject by turning
its separators into dots.
-/

namespace MeshsatHub.Topics
open Strings List

def natsSubject (topic : String) : String := replaceChar '/' '.' topic

/-- The topic root of the default tenant. -/
def platformNamespace : String := "meshsat"

/-- The allow lists of one bridge. -/
structure NATSGrants where
  publish : List String
  subscribe : List String

def natsPermissions (ns bridgeID : String) : NATSGrants :=
  let n := natsSubject ns
  let own := n ++ ".bridge." ++ bridgeID ++ ".>"
  { publish :=
      [own, n ++ ".*.position", n ++ ".*.telemetry", n ++ ".*.sos", n ++ ".*.health",
        n ++ ".*.signal", n ++ ".*.mo.>", n ++ ".*.status.>", n ++ ".*.sms.>",
        n ++ ".*.config.current"]
    subscribe :=
      [own, n ++ ".*.mt.>", n ++ ".*.config.>"] ++
        (if ns = platformNamespace then ["meshsat.broadcast.>"]
          else [n ++ ".broadcast.tak.cot.in", n ++ ".broadcast.tak.cot.in.*"]) ++
        ["$MQTT.sub.>"] }

def hubOnlyBridgeTopics : List String :=
  ["msg.in", "msg.status", "sos.ack", "hub.caps", "tak.cot.in", "rns.access", "warn.in"]

def natsPublishDeny (ns _bridgeID : String) : List String :=
  let every := natsSubject ns ++ ".bridge.*."
  hubOnlyBridgeTopics.flatMap fun t => [every ++ t, every ++ t ++ ".>"]

/-- The characters of bridge ids and usernames. -/
def identChar (c : Char) : Bool :=
  ('a' ≤ c && c ≤ 'z') || ('A' ≤ c && c ≤ 'Z') || ('0' ≤ c && c ≤ '9') ||
    c = '-' || c = '_' || c = '.'

def validIdent (s : String) : Bool :=
  s ≠ "" && s.utf8ByteSize ≤ 128 && s.toList.all identChar

def validBridgeID (id : String) : Bool := validIdent id && !(id.toList.contains '.')

def tokensMatch : List String → List String → Bool
  | [], subject => subject.isEmpty
  | p :: pattern, subject =>
    if p = ">" then !subject.isEmpty
    else
      match subject with
      | [] => false
      | t :: rest => (p = "*" || p = t) && tokensMatch pattern rest

/-- The permission rule of the broker, as the repository's own tests restate it (`natsAllows`). -/
def subjectMatches (pattern subject : String) : Bool :=
  tokensMatch (split '.' pattern) (split '.' subject)

variable (ns bridgeID topic : String)

def publishAllowed : Bool :=
  (natsPermissions ns bridgeID).publish.any (subjectMatches · (natsSubject topic))

def publishDenied : Bool :=
  (natsPublishDeny ns bridgeID).any (subjectMatches · (natsSubject topic))

/-- The broker's answer to a publish: a deny wins over an allow. -/
def mayPublish : Bool :=
  publishAllowed ns bridgeID topic && !publishDenied ns bridgeID topic

/-- The tenant ids `topicNamespace` is meant for: non-empty, one level, no
wildcard character, and none of the reserved second levels. -/
structure TenantId (tenantID : String) : Prop where
  nonempty : tenantID ≠ ""
  slash : Lacks '/' tenantID
  dot : Lacks '.' tenantID
  star : Lacks '*' tenantID
  gt : Lacks '>' tenantID
  unreserved : tenantID ∉ reservedSecond

instance (tenantID : String) : Decidable (TenantId tenantID) :=
  decidable_of_iff (tenantID ≠ "" ∧ Lacks '/' tenantID ∧ Lacks '.' tenantID ∧
      Lacks '*' tenantID ∧ Lacks '>' tenantID ∧ tenantID ∉ reservedSecond)
    ⟨fun ⟨h₁, h₂, h₃, h₄, h₅, h₆⟩ => ⟨h₁, h₂, h₃, h₄, h₅, h₆⟩,
      fun h => ⟨h.1, h.2, h.3, h.4, h.5, h.6⟩⟩

def namespaceLevels (tenantID : String) : List String :=
  if tenantID = defaultTenant then ["meshsat"] else ["meshsat", tenantID]

/-- The suffixes granted as a whole, directly after the device level. -/
def leafSuffixes : List String := ["position", "telemetry", "sos", "health", "signal"]

/-- The suffixes granted with everything below them. -/
def treeSuffixes : List String := ["mo", "status", "sms"]

/-- The levels after the namespace that some publish grant covers. -/
inductive GrantedLevels (bridgeID : String) : List String → Prop
  | own (x : String) (xs : List String) : GrantedLevels bridgeID ("bridge" :: bridgeID :: x :: xs)
  | leaf (d s : String) (h : s ∈ leafSuffixes) : GrantedLevels bridgeID [d, s]
  | tree (d s x : String) (xs : List String) (h : s ∈ treeSuffixes) :
      GrantedLevels bridgeID (d :: s :: x :: xs)
  | config (d : String) : GrantedLevels bridgeID [d, "config", "current"]

theorem validBridgeID_chars {id : String} (h : validBridgeID id) {c : Char}
    (hc : identChar c = false) : Lacks c id := by
  simp only [validBridgeID, validIdent, Bool.and_eq_true, all_eq_true] at h
  intro hm
  exact absurd (h.1.2 c hm) (by simp [hc])

theorem validBridgeID_lacks_dot {id : String} (h : validBridgeID id) : Lacks '.' id := by
  simp only [validBridgeID, Bool.and_eq_true, Bool.not_eq_true', contains_eq_mem,
    decide_eq_false_iff_not] at h
  exact h.2

variable {s : String}

theorem ne_of_lacks {c : Char} {t : String} (h : Lacks c s) (ht : c ∈ t.toList) : s ≠ t := by
  rintro rfl
  exact h ht

theorem tokensMatch_append (fixed pattern subject : List String)
    (hfixed : ∀ p ∈ fixed, p ≠ "*" ∧ p ≠ ">") :
    tokensMatch (fixed ++ pattern) subject ↔
      ∃ rest, subject = fixed ++ rest ∧ tokensMatch pattern rest := by
  induction fixed generalizing subject with
  | nil => simp
  | cons p fixed ih =>
    obtain ⟨hstar, hgt⟩ := hfixed p (by simp)
    have ih' := fun subject => ih subject fun q hq => hfixed q (by simp [hq])
    cases subject with
    | nil => simp [tokensMatch, hgt]
    | cons t rest =>
      simp only [cons_append, tokensMatch, if_neg hgt, hstar, decide_false,
        Bool.false_or, Bool.and_eq_true, decide_eq_true_eq, ih', List.cons.injEq]
      constructor
      · rintro ⟨rfl, tail, rfl, h⟩
        exact ⟨tail, ⟨rfl, rfl⟩, h⟩
      · rintro ⟨tail, ⟨rfl, rfl⟩, h⟩
        exact ⟨rfl, tail, rfl, h⟩

variable {tenantID bridgeID : String}

theorem split_topicNamespace (hne : tenantID ≠ "") (hslash : Lacks '/' tenantID) :
    split '/' (topicNamespace tenantID) = namespaceLevels tenantID := by
  unfold topicNamespace namespaceLevels
  by_cases hd : tenantID = defaultTenant
  · rw [if_pos (Or.inr hd), if_pos hd]
    rfl
  · have hn : ¬ (tenantID = "" ∨ tenantID = defaultTenant) := fun h => h.elim hne hd
    have happ : "meshsat/" ++ tenantID = "meshsat" ++ ("/" ++ tenantID) := by
      rw [← String.append_assoc]
      rfl
    rw [if_neg hn, if_neg hd, happ, split_append (u := tenantID) (by simp), split_of_lacks hslash]
    rfl

section
variable (ht : TenantId tenantID)
include ht

theorem topicNamespace_levels : split '/' (topicNamespace tenantID) = namespaceLevels tenantID :=
  split_topicNamespace ht.nonempty ht.slash

theorem topicNamespace_lacks_dot : Lacks '.' (topicNamespace tenantID) := by
  unfold topicNamespace
  split
  · decide
  · exact Lacks.append (by decide) ht.dot

theorem natsSubject_namespace :
    split '.' (natsSubject (topicNamespace tenantID)) = namespaceLevels tenantID := by
  rw [natsSubject, split_replaceChar (topicNamespace_lacks_dot ht), topicNamespace_levels ht]

theorem namespaceLevels_literal : ∀ p ∈ namespaceLevels tenantID, p ≠ "*" ∧ p ≠ ">" := by
  intro p hp
  unfold namespaceLevels at hp
  split at hp
  · rw [mem_singleton.1 hp]
    decide
  · obtain rfl | hp := mem_cons.1 hp
    · decide
    · rw [mem_singleton.1 hp]
      exact ⟨ne_of_lacks ht.star (by decide), ne_of_lacks ht.gt (by decide)⟩

theorem split_grant (grant tail : String) (h : grant.toList = '.' :: tail.toList) :
    split '.' (natsSubject (topicNamespace tenantID) ++ grant) =
      namespaceLevels tenantID ++ split '.' tail := by
  rw [split_append h, natsSubject_namespace ht]

theorem split_own_grant (hb : validBridgeID bridgeID) :
    split '.' (natsSubject (topicNamespace tenantID) ++ ".bridge." ++ bridgeID ++ ".>") =
      namespaceLevels tenantID ++ ["bridge", bridgeID, ">"] := by
  have happ : natsSubject (topicNamespace tenantID) ++ ".bridge." ++ bridgeID ++ ".>" =
      natsSubject (topicNamespace tenantID) ++ (".bridge" ++ ("." ++ (bridgeID ++ ".>"))) := by
    simp only [String.append_assoc]
    rw [← @String.append_assoc ".bridge" "."]
    rfl
  have hbridge : (".bridge" ++ ("." ++ (bridgeID ++ ".>"))).toList =
      '.' :: ("bridge" ++ ("." ++ (bridgeID ++ ".>"))).toList := by
    simp
  rw [happ, split_grant ht _ _ hbridge, split_append (u := bridgeID ++ ".>") (by simp),
    split_append (u := ">") (by rfl), split_of_lacks (validBridgeID_lacks_dot hb)]
  rfl

theorem subjectMatches_grant {topic : String} (hdots : Lacks '.' topic) {grant : String}
    {tail : List String} (h : split '.' grant = namespaceLevels tenantID ++ tail) :
    subjectMatches grant (natsSubject topic) ↔
      ∃ rest, split '/' topic = namespaceLevels tenantID ++ rest ∧
        tokensMatch tail rest := by
  rw [subjectMatches, h, natsSubject, split_replaceChar hdots]
  exact tokensMatch_append _ tail (split '/' topic) (namespaceLevels_literal ht)

end

theorem tokensMatch_own (hb : validBridgeID bridgeID) (rest : List String) :
    tokensMatch ["bridge", bridgeID, ">"] rest ↔
      ∃ x xs, rest = "bridge" :: bridgeID :: x :: xs := by
  have hstar : bridgeID ≠ "*" := ne_of_lacks (validBridgeID_chars hb (c := '*') rfl) (by decide)
  have hgt : bridgeID ≠ ">" := ne_of_lacks (validBridgeID_chars hb (c := '>') rfl) (by decide)
  have h := tokensMatch_append ["bridge", bridgeID] [">"] rest (by simp [hstar, hgt])
  rw [cons_append, cons_append, nil_append] at h
  rw [h]
  constructor
  · rintro ⟨tail, rfl, htail⟩
    cases tail with
    | nil => simp [tokensMatch] at htail
    | cons x xs => exact ⟨x, xs, rfl⟩
  · rintro ⟨x, xs, rfl⟩
    exact ⟨x :: xs, rfl, rfl⟩

theorem tokensMatch_leaf (hgt : s ≠ ">") (hstar : s ≠ "*") (rest : List String) :
    tokensMatch ["*", s] rest ↔ ∃ d, rest = [d, s] := by
  obtain _ | ⟨d, _ | ⟨t, _ | ⟨x, xs⟩⟩⟩ := rest <;> simp [tokensMatch, hgt, hstar, @eq_comm _ s]

theorem tokensMatch_tree (hgt : s ≠ ">") (hstar : s ≠ "*") (rest : List String) :
    tokensMatch ["*", s, ">"] rest ↔ ∃ d x xs, rest = d :: s :: x :: xs := by
  obtain _ | ⟨d, _ | ⟨t, _ | ⟨x, xs⟩⟩⟩ := rest <;> simp [tokensMatch, hgt, hstar, @eq_comm _ s]

theorem tokensMatch_config (rest : List String) :
    tokensMatch ["*", "config", "current"] rest ↔ ∃ d, rest = [d, "config", "current"] := by
  obtain _ | ⟨d, _ | ⟨t, _ | ⟨x, _ | ⟨y, ys⟩⟩⟩⟩ := rest <;>
    simp [tokensMatch, @eq_comm _ "config", @eq_comm _ "current"]

variable {topic : String}

theorem natsPermissions_publish (ns bridgeID : String) : (natsPermissions ns bridgeID).publish =
      (natsSubject ns ++ ".bridge." ++ bridgeID ++ ".>") ::
        (leafSuffixes.map fun s => natsSubject ns ++ (".*." ++ s)) ++
        (treeSuffixes.map fun s => natsSubject ns ++ (".*." ++ s ++ ".>")) ++
        [natsSubject ns ++ ".*.config.current"] := rfl

section
variable (ht : TenantId tenantID) (hdots : Lacks '.' topic)

include ht hdots

theorem subjectMatches_own (hb : validBridgeID bridgeID) :
    subjectMatches (natsSubject (topicNamespace tenantID) ++ ".bridge." ++ bridgeID ++ ".>")
        (natsSubject topic) ↔
      ∃ x xs, split '/' topic = namespaceLevels tenantID ++ "bridge" :: bridgeID :: x :: xs := by
  simp only [subjectMatches_grant ht hdots (split_own_grant ht hb), tokensMatch_own hb]
  constructor
  · rintro ⟨_, hlevels, x, xs, rfl⟩
    exact ⟨x, xs, hlevels⟩
  · rintro ⟨x, xs, hlevels⟩
    exact ⟨_, hlevels, x, xs, rfl⟩

theorem subjectMatches_leaf (hs : s ∈ leafSuffixes) :
    subjectMatches (natsSubject (topicNamespace tenantID) ++ (".*." ++ s)) (natsSubject topic) =
        true ↔
      ∃ d, split '/' topic = namespaceLevels tenantID ++ [d, s] := by
  have htokens : ∀ s ∈ leafSuffixes,
      split '.' ("*." ++ s) = ["*", s] ∧ s ≠ ">" ∧ s ≠ "*" := by decide
  obtain ⟨htok, hgt, hstar⟩ := htokens s hs
  have hsplit := split_grant ht (".*." ++ s) ("*." ++ s) (by simp)
  simp only [subjectMatches_grant ht hdots hsplit, htok, tokensMatch_leaf hgt hstar]
  constructor
  · rintro ⟨_, hlevels, d, rfl⟩
    exact ⟨d, hlevels⟩
  · rintro ⟨d, hlevels⟩
    exact ⟨_, hlevels, d, rfl⟩

theorem subjectMatches_tree (hs : s ∈ treeSuffixes) :
    subjectMatches (natsSubject (topicNamespace tenantID) ++ (".*." ++ s ++ ".>"))
        (natsSubject topic) ↔
      ∃ d x xs, split '/' topic = namespaceLevels tenantID ++ d :: s :: x :: xs := by
  have htokens : ∀ s ∈ treeSuffixes,
      split '.' ("*." ++ s ++ ".>") = ["*", s, ">"] ∧ s ≠ ">" ∧ s ≠ "*" := by decide
  obtain ⟨htok, hgt, hstar⟩ := htokens s hs
  have hsplit := split_grant ht (".*." ++ s ++ ".>") ("*." ++ s ++ ".>") (by simp)
  simp only [subjectMatches_grant ht hdots hsplit, htok, tokensMatch_tree hgt hstar]
  constructor
  · rintro ⟨_, hlevels, d, x, xs, rfl⟩
    exact ⟨d, x, xs, hlevels⟩
  · rintro ⟨d, x, xs, hlevels⟩
    exact ⟨_, hlevels, d, x, xs, rfl⟩

theorem subjectMatches_config :
    subjectMatches (natsSubject (topicNamespace tenantID) ++ ".*.config.current")
        (natsSubject topic) ↔
      ∃ d, split '/' topic = namespaceLevels tenantID ++ [d, "config", "current"] := by
  have hsplit := split_grant ht ".*.config.current" "*.config.current" rfl
  have htok : split '.' "*.config.current" = ["*", "config", "current"] := rfl
  simp only [subjectMatches_grant ht hdots hsplit, htok, tokensMatch_config]
  constructor
  · rintro ⟨_, hlevels, d, rfl⟩
    exact ⟨d, hlevels⟩
  · rintro ⟨d, hlevels⟩
    exact ⟨_, hlevels, d, rfl⟩

theorem publishAllowed_iff (hb : validBridgeID bridgeID) :
    publishAllowed (topicNamespace tenantID) bridgeID topic ↔
      ∃ rest, split '/' topic = namespaceLevels tenantID ++ rest ∧
        GrantedLevels bridgeID rest := by
  rw [publishAllowed, natsPermissions_publish, any_eq_true]
  constructor
  · rintro ⟨grant, hmem, hmatch⟩
    simp only [cons_append, mem_cons, mem_append, mem_map, not_mem_nil, or_false] at hmem
    obtain rfl | ((⟨s, hs, rfl⟩ | ⟨s, hs, rfl⟩) | rfl) := hmem
    · obtain ⟨x, xs, hlevels⟩ := (subjectMatches_own ht hdots hb).1 hmatch
      exact ⟨_, hlevels, .own x xs⟩
    · obtain ⟨d, hlevels⟩ := (subjectMatches_leaf ht hdots hs).1 hmatch
      exact ⟨_, hlevels, .leaf d s hs⟩
    · obtain ⟨d, x, xs, hlevels⟩ := (subjectMatches_tree ht hdots hs).1 hmatch
      exact ⟨_, hlevels, .tree d s x xs hs⟩
    · obtain ⟨d, hlevels⟩ := (subjectMatches_config ht hdots).1 hmatch
      exact ⟨_, hlevels, .config d⟩
  · rintro ⟨rest, hlevels, hrest⟩
    cases hrest with
    | own x xs => exact ⟨_, by simp, (subjectMatches_own ht hdots hb).2 ⟨x, xs, hlevels⟩⟩
    | leaf d s hs =>
      exact ⟨natsSubject (topicNamespace tenantID) ++ (".*." ++ s), by simp [hs],
        (subjectMatches_leaf ht hdots hs).2 ⟨d, hlevels⟩⟩
    | tree d s x xs hs =>
      exact ⟨natsSubject (topicNamespace tenantID) ++ (".*." ++ s ++ ".>"), by simp [hs],
        (subjectMatches_tree ht hdots hs).2 ⟨d, x, xs, hlevels⟩⟩
    | config d => exact ⟨_, by simp, (subjectMatches_config ht hdots).2 ⟨d, hlevels⟩⟩

end

end MeshsatHub.Topics
