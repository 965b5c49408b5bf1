import MeshsatHub.Rns.Transfer

/-!
# Runs of a transfer

What holds between the two ends of a transfer in every run (`Sane`), whatever is lost and whenever
the watchdogs fire. A message moves the receiver (`Sane.absorb`) or the sender (`Sane.answer`).
-/

namespace MeshsatHub.Rns
open Rnswire Runs Slices Tables List Option
variable {r₀ : OutgoingResource} {m m' : Nat} {queue more : List Down} {d : Down}

/-- A message that the sender sends once it has been asked: a part, or a segment of map hashes
up to the one that it was asked for last. -/
def Down.Later (r₀ : OutgoingResource) (m : Nat) : Down → Prop
  | .adv _ => False
  | .part data => data ∈ r₀.parts
  | .hmu hash v => hash = r₀.hash ∧ ∃ segment ≤ m,
      segment * resourceHashmapMaxLen ≤ r₀.parts.length ∧
        v = .array [.ofNat segment, .bin (r₀.segmentHashes segment).flatten]

/-- The advertisements come first. -/
def Channel (r₀ : OutgoingResource) (m : Nat) : List Down → Prop
  | [] => True
  | .adv v :: rest => v = r₀.advertisement 0 ∧ Channel r₀ m rest
  | d :: rest => d.Later r₀ m ∧ ∀ d' ∈ rest, d'.Later r₀ m

theorem Down.Later.mono (h : d.Later r₀ m) (hm : m ≤ m') : d.Later r₀ m' := by
  cases d with
  | adv v | part data => exact h
  | hmu hash v =>
    obtain ⟨hhash, segment, hle, hsegment⟩ := h
    exact ⟨hhash, segment, Nat.le_trans hle hm, hsegment⟩

theorem Channel.mono (h : Channel r₀ m queue) (hm : m ≤ m') : Channel r₀ m' queue := by
  induction queue with
  | nil => trivial
  | cons d rest ih =>
    cases d with
    | adv v => exact ⟨h.1, ih h.2⟩
    | part data => exact ⟨h.1, fun d' hd' => (h.2 d' hd').mono hm⟩
    | hmu hash v =>
      have hlater : (Down.hmu hash v).Later r₀ m := h.1
      exact ⟨hlater.mono hm, fun d' hd' => (h.2 d' hd').mono hm⟩

theorem channel_of_later (h : ∀ d ∈ queue, d.Later r₀ m) : Channel r₀ m queue := by
  cases queue with
  | nil => trivial
  | cons d rest =>
    have hd := h d mem_cons_self
    cases d with
    | adv v => exact hd.elim
    | part data | hmu hash v => exact ⟨hd, fun d' hd' => h d' (mem_cons_of_mem _ hd')⟩

theorem Channel.tail (h : Channel r₀ m (d :: queue)) : Channel r₀ m queue := by
  cases d with
  | adv v => exact h.2
  | part data | hmu hash v => exact channel_of_later h.2

theorem Channel.append_later (h : Channel r₀ m queue)
    (hmore : ∀ d ∈ more, d.Later r₀ m) : Channel r₀ m (queue ++ more) := by
  have hall : ∀ rest : List Down, (∀ d ∈ rest, d.Later r₀ m) →
      ∀ d ∈ rest ++ more, d.Later r₀ m := fun rest hrest d hd =>
    (mem_append.1 hd).elim (hrest d) (hmore d)
  induction queue with
  | nil => exact channel_of_later hmore
  | cons d rest ih =>
    cases d with
    | adv v => exact ⟨h.1, ih h.2⟩
    | part data | hmu hash v => exact ⟨h.1, hall rest h.2⟩

theorem channel_of_adv (h : ∀ d ∈ queue, d = .adv (r₀.advertisement 0)) : Channel r₀ m queue := by
  induction queue with
  | nil => trivial
  | cons d rest ih =>
    obtain rfl := h d mem_cons_self
    exact ⟨rfl, ih fun d' hd' => h d' (mem_cons_of_mem _ hd')⟩

variable {c : Crypto} {payload : Bytes} {a a' : Nat} {w : World}

/-- An advertisement may still arrive. -/
def World.Early (w : World) : Prop :=
  (∃ v, .adv v ∈ w.toReceiver) ∨ ∃ r, w.sender = some r ∧ r.state = .advertised

/-- What holds between the ends: the sender was asked for segment `m`, the receiver has asked for
segment `a`. -/
structure Sane (r₀ : OutgoingResource) (payload : Bytes) (m a : Nat) (w : World) : Prop where
  sender : ∀ r, w.sender = some r → r.bare = r₀.bare ∧
    r.recvMinHeight = m * resourceHashmapMaxLen - 1 - resourceWindowMaxFast
  queue : Ordered r₀ m m a w.toSender
  receiver : ∀ hash r, w.receiver hash = some r → hash = r₀.hash ∧ Level r₀ m a r
  channel : Channel r₀ m w.toReceiver
  /-- A sender that was not asked has sent advertisements only. -/
  silent : ∀ r, w.sender = some r → r.state = .advertised →
    ∀ d ∈ w.toReceiver, d = .adv (r₀.advertisement 0)
  fresh : w.Early → a = 0 ∧ ∀ hash r, w.receiver hash = some r → r.consecutive = -1
  proofs : ∀ data, .proof data ∈ w.toSender → w.completed ≠ []
  completed : ∀ data ∈ w.completed, data = payload
  verdict : ∀ v, w.verdict = some v →
    v ≠ .error .sequencing ∧ v ≠ .error .hmu ∧ (v = .ok () → w.completed ≠ [])

theorem sane_start (hstate : r₀.recvMinHeight = 0) : Sane r₀ payload 0 0 (World.start r₀) where
  sender := by
    rintro r ⟨⟩
    exact ⟨rfl, hstate.trans (by decide)⟩
  queue := Nat.le_refl 0
  receiver := nofun
  channel := ⟨rfl, trivial⟩
  silent := by
    rintro r - - d hd
    exact mem_singleton.1 hd
  fresh := fun _ => ⟨rfl, nofun⟩
  proofs := nofun
  completed := nofun
  verdict := nofun

theorem Sane.popDown (h : Sane r₀ payload m a w) {rest : List Down}
    (hd : w.toReceiver = d :: rest) : Sane r₀ payload m a { w with toReceiver := rest } where
  sender := h.sender
  queue := h.queue
  receiver := h.receiver
  channel := by
    have hchannel := h.channel
    rw [hd] at hchannel
    exact hchannel.tail
  silent := fun r hr hstate d' hd' => h.silent r hr hstate d' (hd ▸ mem_cons_of_mem _ hd')
  fresh := by
    rintro (⟨v, hv⟩ | hsender)
    · exact h.fresh (.inl ⟨v, hd ▸ mem_cons_of_mem _ hv⟩)
    · exact h.fresh (.inr hsender)
  proofs := h.proofs
  completed := h.completed
  verdict := h.verdict

variable {rest : List Up} {r : OutgoingResource} {out : List Output} {t : IncomingTable}

section
variable (h : Sane r₀ payload m a w)
include h

theorem Sane.popUp {u : Up} (hu : w.toSender = u :: rest) :
    Sane r₀ payload m a { w with toSender := rest } where
  sender := h.sender
  queue := by
    have hqueue := h.queue
    rw [hu] at hqueue
    exact hqueue.tail
  receiver := h.receiver
  channel := h.channel
  silent := h.silent
  fresh := h.fresh
  proofs := fun data hdata => h.proofs data (hu ▸ mem_cons_of_mem _ hdata)
  completed := h.completed
  verdict := h.verdict

theorem Sane.conclude {v : Except TransferError Unit} (hsequencing : v ≠ .error .sequencing)
    (hhmu : v ≠ .error .hmu) (hok : v = .ok () → w.completed ≠ []) :
    Sane r₀ payload m a { w with sender := none, verdict := some v } where
  sender := nofun
  queue := h.queue
  receiver := h.receiver
  channel := h.channel
  silent := nofun
  fresh := by
    rintro (hadv | ⟨r, hr, -⟩)
    · exact h.fresh (.inl hadv)
    · cases hr
  proofs := h.proofs
  completed := h.completed
  verdict := by
    rintro v ⟨⟩
    exact ⟨hsequencing, hhmu, hok⟩

theorem Sane.fail {err : TransferError} (hsequencing : err ≠ .sequencing) (hhmu : err ≠ .hmu) :
    Sane r₀ payload m a (w.fail err) :=
  h.conclude (fun heq => hsequencing (Except.error.inj heq))
    (fun heq => hhmu (Except.error.inj heq)) nofun

theorem Sane.answer (hm : m ≤ m') (hqueue : Ordered r₀ m' m' a w.toSender)
    (hbare : r.bare = r₀.bare) (hstate : r.state ≠ .advertised)
    (hheight : r.recvMinHeight = m' * resourceHashmapMaxLen - 1 - resourceWindowMaxFast)
    (hmore : ∀ d ∈ more, d.Later r₀ m') :
    Sane r₀ payload m' a { w with sender := some r, toReceiver := w.toReceiver ++ more } where
  sender := by
    rintro r ⟨⟩
    exact ⟨hbare, hheight⟩
  queue := hqueue
  receiver := fun hash r hr => ⟨(h.receiver hash r hr).1, (h.receiver hash r hr).2.mono hm⟩
  channel := (h.channel.mono hm).append_later hmore
  silent := by
    rintro r ⟨⟩ hadvertised
    exact absurd hadvertised hstate
  fresh := by
    rintro (⟨v, hv⟩ | ⟨r, ⟨⟩, hadvertised⟩)
    · obtain hold | hnew := mem_append.1 hv
      · exact h.fresh (.inl ⟨v, hold⟩)
      · exact (hmore _ hnew).elim
    · exact absurd hadvertised hstate
  proofs := h.proofs
  completed := h.completed
  verdict := h.verdict

theorem Sane.absorb (hreceiver : ∀ hash r, t hash = some r → hash = r₀.hash ∧ Level r₀ m a' r)
    (hqueue : Ordered r₀ m m a' (w.toSender ++ out.filterMap Output.up))
    (hfresh : w.Early → a' = 0 ∧ ∀ hash r, t hash = some r → r.consecutive = -1)
    (hproofs : ∀ data, .proof data ∈ out.filterMap Output.up → out.filterMap Output.data ≠ [])
    (hcompleted : ∀ data ∈ out.filterMap Output.data, data = payload) :
    Sane r₀ payload m a' (w.absorb t out) where
  sender := h.sender
  queue := hqueue
  receiver := hreceiver
  channel := h.channel
  silent := h.silent
  fresh := hfresh
  proofs := by
    intro data hdata hnil
    obtain ⟨hold, hnew⟩ := append_eq_nil_iff.1 hnil
    obtain hdata | hdata := mem_append.1 hdata
    · exact h.proofs data hdata hold
    · exact hproofs data hdata hnew
  completed := fun data hdata =>
    (mem_append.1 hdata).elim (h.completed data) (hcompleted data)
  verdict := by
    intro v hv
    obtain ⟨hsequencing, hhmu, hok⟩ := h.verdict v hv
    exact ⟨hsequencing, hhmu, fun heq hnil => hok heq (append_eq_nil_iff.1 hnil).1⟩

theorem Sane.absorb_nil (hreceiver : ∀ hash r, t hash = some r → hash = r₀.hash ∧ Level r₀ m a r)
    (hfresh : w.Early → ∀ hash r, t hash = some r → r.consecutive = -1) :
    Sane r₀ payload m a (w.absorb t []) := by
  refine h.absorb hreceiver ?_ (fun hearly => ⟨(h.fresh hearly).1, hfresh hearly⟩) nofun nofun
  rw [filterMap_nil, append_nil]
  exact h.queue

theorem Sane.absorb_update {r : IncomingResource} (hr : Level r₀ m a r) (hearly : ¬w.Early) :
    Sane r₀ payload m a (w.absorb (Function.update w.receiver r₀.hash (some r)) []) := by
  refine h.absorb_nil (fun hash r' hr' => ?_) fun hnot => absurd hnot hearly
  obtain ⟨rfl, ⟨⟩⟩ | ⟨-, hold⟩ := update_cases hr'
  · exact ⟨rfl, hr⟩
  · exact h.receiver hash r' hold

theorem Sane.absorb_erase :
    Sane r₀ payload m a (w.absorb (Function.update w.receiver r₀.hash none) []) := by
  refine h.absorb_nil (fun hash r' hr' => ?_) fun hearly hash r' hr' => ?_
  · obtain ⟨rfl, ⟨⟩⟩ | ⟨-, hold⟩ := update_cases hr'
    exact h.receiver hash r' hold
  · obtain ⟨rfl, ⟨⟩⟩ | ⟨-, hold⟩ := update_cases hr'
    exact (h.fresh hearly).2 hash r' hold

end

theorem filterMap_up_request (plain : Option Bytes) :
    (plain.map Output.request).toList.filterMap Output.up = (plain.map Up.request).toList ∧
      (plain.map Output.request).toList.filterMap Output.data = [] := by
  cases plain <;> exact ⟨rfl, rfl⟩

theorem Sane.askNext (h : Sane r₀ payload m a w) {r : IncomingResource} (hr : Level r₀ m a r)
    (hfresh : w.Early → r.consecutive = -1) :
    ∃ t out a', w.receiver.askNext r = .ok (t, out) ∧ Sane r₀ payload m a' (w.absorb t out) := by
  obtain ⟨r', plain, a', heq, hlevel, hconsecutive, hsame, hqueue⟩ := askNext_spec w.receiver hr
  obtain ⟨hup, hdata⟩ := filterMap_up_request plain
  refine ⟨_, _, a', heq, h.absorb (fun hash r'' hr'' => ?_) ?_ (fun hearly => ?_) ?_ ?_⟩
  · obtain ⟨rfl, ⟨⟩⟩ | ⟨hne, hold⟩ := update_cases hr''
    · exact ⟨rfl, hlevel⟩
    · exact absurd (h.receiver hash r'' hold).1 hne
  · rw [hup]
    exact hqueue _ h.queue
  · have hnone := hfresh hearly
    refine ⟨(hsame hnone).trans (h.fresh hearly).1, fun hash r'' hr'' => ?_⟩
    obtain ⟨rfl, ⟨⟩⟩ | ⟨-, hold⟩ := update_cases hr''
    · rw [hconsecutive, hnone]
    · exact (h.fresh hearly).2 hash r'' hold
  · intro data hdata'
    cases plain with
    | none => cases hdata'
    | some plain => cases mem_singleton.1 hdata'
  · rw [hdata]
    exact nofun

theorem window_of_level {i : Nat}
    (hlow : (m * resourceHashmapMaxLen : Int) - resourceWindowMaxFast - 1 ≤ i)
    (hhigh : (i : Int) < (m + 1) * resourceHashmapMaxLen) :
    m * resourceHashmapMaxLen - 1 - resourceWindowMaxFast ≤ i ∧
      i < m * resourceHashmapMaxLen - 1 - resourceWindowMaxFast + resourceCollisionGuard := by
  have hlen : resourceHashmapMaxLen = 74 := by decide
  have hfast : resourceWindowMaxFast = 75 := rfl
  have hguard : resourceCollisionGuard = 224 := by decide
  rw [hlen] at hlow hhigh ⊢
  omega

section
variable (hp : Prepared c r₀)
include hp

theorem prepared_of_bare (hbare : r.bare = r₀.bare) : Prepared c r := by
  have hparts : r.parts = r₀.parts := (congrArg OutgoingResource.parts hbare :)
  have hhashes : r.mapHashes = r₀.mapHashes := (congrArg OutgoingResource.mapHashes hbare :)
  have hrandom : r.randomHash = r₀.randomHash := (congrArg OutgoingResource.randomHash hbare :)
  have hdata : r.data = r₀.data := (congrArg OutgoingResource.data hbare :)
  have hhash : r.hash = r₀.hash := (congrArg OutgoingResource.hash hbare :)
  refine ⟨?_, ?_, ?_, ?_, ?_⟩
  · rw [hhashes, hparts, hrandom, hp.hashes]
  · rw [hhashes]
    exact hp.nodup
  · rw [hparts]
    exact hp.nonempty
  · rw [hparts, hdata, hp.whole]
  · rw [hhash, hp.hash_length]

section
variable (h : Sane r₀ payload m a w)
include h

theorem Sane.head {plain : Bytes}
    (hu : w.toSender = .request plain :: rest) (hr : w.sender = some r) :
    ∃ req hi, parseResourceRequest plain = some req ∧ req.hash = r.hash ∧
      (∀ mh ∈ req.wanted, ∃ i, r.recvMinHeight ≤ i ∧ i < r.recvMinHeight + resourceCollisionGuard ∧
        i < r.parts.length ∧ r.mapHashes.getD i [] = mh) ∧
      m ≤ hi ∧ Ordered r₀ m hi a rest ∧
      (req.exhausted = false ∨ req.exhausted ∧ 0 < hi ∧
        hi * resourceHashmapMaxLen < r.parts.length ∧
        r.recvMinHeight ≤ hi * resourceHashmapMaxLen - 1 ∧
        hi * resourceHashmapMaxLen - 1 < r.recvMinHeight + resourceCollisionGuard ∧
        req.lastMap = r.mapHashes.getD (hi * resourceHashmapMaxLen - 1) []) := by
  obtain ⟨hbare, hheight⟩ := h.sender r hr
  have hparts : r.parts = r₀.parts := (congrArg OutgoingResource.parts hbare :)
  have hhashes : r.mapHashes = r₀.mapHashes := (congrArg OutgoingResource.mapHashes hbare :)
  have hhash : r.hash = r₀.hash := (congrArg OutgoingResource.hash hbare :)
  have hqueue := h.queue
  rw [hu] at hqueue
  obtain ⟨hi, hle, hat, hrest⟩ := hqueue
  obtain ⟨req, hparse, hown, hwanted, hexhausted⟩ := hat.parse hp
  rw [hheight, hparts, hhashes, hhash]
  refine ⟨req, hi, hparse, hown, fun mh hmh => ?_, hle, hrest, ?_⟩
  · obtain ⟨i, hlow, hhigh, hi', hget⟩ := hwanted mh hmh
    obtain ⟨hlow', hhigh'⟩ := window_of_level hlow hhigh
    exact ⟨i, hlow', hhigh', hi', hget⟩
  · obtain hno | ⟨hyes, hpos, hhi, hin, hlast⟩ := hexhausted
    · exact .inl hno
    · have hpos' := Nat.mul_pos hpos (show 0 < resourceHashmapMaxLen by decide)
      have hlow := Nat.mul_le_mul_right resourceHashmapMaxLen hle
      have hhigh : ((hi * resourceHashmapMaxLen : Nat) : Int) ≤
          (m + 1) * resourceHashmapMaxLen := by
        exact_mod_cast Nat.mul_le_mul_right resourceHashmapMaxLen hhi
      have hwindow := @window_of_level m (hi * resourceHashmapMaxLen - 1) (by omega) (by omega)
      exact .inr ⟨hyes, hpos, hin, hwindow.1, hwindow.2, hlast⟩

theorem Sane.handleRequest {plain : Bytes}
    (hu : w.toSender = .request plain :: rest) (hr : w.sender = some r) : ∃ m', Sane r₀ payload m' a
      (({ w with toSender := rest } : World).handleRequest r plain) := by
  obtain ⟨req, hi, hparse, hown, -, hle, hrest, hexhausted⟩ := h.head hp hu hr
  obtain ⟨hbare, hheight⟩ := h.sender r hr
  have hparts : r.parts = r₀.parts := (congrArg OutgoingResource.parts hbare :)
  have hhash : r.hash = r₀.hash := (congrArg OutgoingResource.hash hbare :)
  have hlater : ∀ (m' : Nat) (parts : List Bytes), (∀ part ∈ parts, part ∈ r.parts) →
      ∀ d ∈ parts.map Down.part, d.Later r₀ m' := by
    intro m' parts hmem d hd
    obtain ⟨part, hpart, rfl⟩ := mem_map.1 hd
    change part ∈ r₀.parts
    rw [← hparts]
    exact hmem part hpart
  rw [World.handleRequest, hparse]
  dsimp only
  rw [if_pos hown]
  obtain hno | ⟨hyes, hpos, hin, hlow, hhigh, hlast⟩ := hexhausted
  · obtain ⟨r', parts, heq, hanswered, hsame⟩ := serve_notExhausted r hno
    rw [heq]
    refine ⟨m, (h.popUp hu).answer (Nat.le_refl _) (hrest.mono (Nat.le_refl _) hle)
      (hanswered.bare.trans hbare) hanswered.state (hsame.trans hheight) ?_⟩
    rw [toList_none, map_nil, append_nil]
    exact hlater m parts hanswered.parts
  · obtain ⟨r', parts, heq, hanswered, hmoved⟩ :=
      serve_exhausted (prepared_of_bare hp hbare) hyes hpos hlast hlow hhigh hin
    rw [heq]
    refine ⟨hi, (h.popUp hu).answer hle (hrest.mono hle (Nat.le_refl _))
      (hanswered.bare.trans hbare) hanswered.state hmoved fun d hd => ?_⟩
    obtain hd | hd := mem_append.1 hd
    · exact hlater hi parts hanswered.parts d hd
    · rw [toList_some, map_singleton, mem_singleton] at hd
      subst hd
      have hsegment : r.segmentHashes hi = r₀.segmentHashes hi :=
        (congrArg (OutgoingResource.segmentHashes · hi) hbare :)
      exact ⟨hhash, hi, Nat.le_refl _, by rw [← hparts]; omega, by rw [hsegment]⟩

theorem Sane.handleUp {u : Up} (hu : w.toSender = u :: rest) :
    ∃ m', Sane r₀ payload m' a (({ w with toSender := rest } : World).handleUp u) := by
  have hpop := h.popUp hu
  rw [World.handleUp]
  split
  · exact ⟨m, hpop⟩
  · rename_i r hr
    split
    · exact h.handleRequest hp hu hr
    · refine ⟨m, ?_⟩
      rw [World.handleProof]
      split
      · exact hpop.conclude nofun nofun fun _ => h.proofs _ (hu ▸ mem_cons_self)
      · exact hpop
    · refine ⟨m, ?_⟩
      split
      · exact hpop.fail nofun nofun
      · exact hpop

end

end

theorem Sane.tickSender (h : Sane r₀ payload m a w) (hr : w.sender = some r) :
    Sane r₀ payload m a (w.tickSender r) := by
  rw [World.tickSender]
  split
  · rename_i hstate
    split
    · exact h.fail nofun nofun
    · obtain ⟨hbare, hheight⟩ := h.sender r hr
      have hadv : r.advertisement 0 = r₀.advertisement 0 :=
        (congrArg (OutgoingResource.advertisement · 0) hbare :)
      have hsilent : ∀ d ∈ w.toReceiver ++ [.adv (r.advertisement 0)],
          d = .adv (r₀.advertisement 0) :=
        all_mem_snoc (h.silent r hr hstate) (by rw [hadv])
      exact
        { sender := by
            rintro r ⟨⟩
            exact ⟨hbare, hheight⟩
          queue := h.queue
          receiver := h.receiver
          channel := channel_of_adv hsilent
          silent := fun _ _ _ => hsilent
          fresh := fun _ => h.fresh (.inr ⟨r, hr, hstate⟩)
          proofs := h.proofs
          completed := h.completed
          verdict := h.verdict }
  · exact h.fail nofun nofun

theorem Sane.not_early (h : Sane r₀ payload m a w) {rest : List Down}
    (hd : w.toReceiver = d :: rest) (hlater : d.Later r₀ m) (hrest : ∀ d' ∈ rest, d'.Later r₀ m) :
    ¬({ w with toReceiver := rest } : World).Early := by
  rintro (⟨v, hv⟩ | ⟨r, hr, hstate⟩)
  · exact hrest _ hv
  · rw [h.silent r hr hstate d (hd ▸ mem_cons_self)] at hlater
    exact hlater

section
variable (hp : Prepared c r₀)
include hp

theorem Sane.handleAdv (hsize : r₀.parts.length < 2 ^ 63)
    (h : Sane r₀ payload m a w) (ha : a = 0) {sdu : Int} {acc : Acceptance}
    (hstep : w.receiver.handleAdv sdu acc (r₀.advertisement 0) = .ok (t, out)) :
    ∃ a', Sane r₀ payload m a' (w.absorb t out) := by
  have hsame : Sane r₀ payload m a (w.absorb w.receiver []) :=
    h.absorb_nil h.receiver fun hearly => (h.fresh hearly).2
  revert hstep
  fun_cases w.receiver.handleAdv sdu acc (r₀.advertisement 0) with
  | case1 | case5 => rintro ⟨⟩
  | case2 | case4 =>
    rintro ⟨⟩
    exact ⟨a, hsame⟩
  | case3 =>
    rintro ⟨⟩
    refine ⟨a, h.absorb h.receiver (h.queue.append_other ?_) h.fresh ?_ (forall_mem_nil _)⟩
    · intro plain hplain
      cases mem_singleton.1 hplain
    · intro data hdata
      cases mem_singleton.1 hdata
  | case6 r hopened _ r' heq' =>
    obtain ⟨rfl, hpos⟩ := readAdvertisement_opened hopened
    obtain ⟨r, heq, hlevel, hnone⟩ := @level_openResource r₀ m c hp hsize hpos
    cases heq.symm.trans heq'
    intro hstep
    obtain ⟨t', out', a', hask, hsane⟩ := h.askNext (ha ▸ hlevel) fun _ => hnone
    cases hask.symm.trans hstep
    exact ⟨a', hsane⟩

theorem Sane.handlePart {random : Bytes} (hrandom : random.length = resourceRandomHashLen)
    (hdecrypt : c.decrypt r₀.data = some (random ++ payload))
    (hhash : r₀.hash = c.sum256 (payload ++ r₀.randomHash)) (h : Sane r₀ payload m a w)
    (hearly : ¬w.Early) {part : Bytes} (hpart : part ∈ r₀.parts)
    (hstep : w.receiver.handlePart c part [r₀.hash] = .ok (t, out)) :
    ∃ a', Sane r₀ payload m a' (w.absorb t out) := by
  have hsame : Sane r₀ payload m a (w.absorb w.receiver []) :=
    h.absorb_nil h.receiver fun hearly => (h.fresh hearly).2
  rw [IncomingTable.handlePart] at hstep
  split at hstep
  · cases hstep
    exact ⟨a, hsame⟩
  · rename_i r hr
    obtain ⟨-, hlevel⟩ := h.receiver _ r hr
    obtain ⟨received, heq, htracks⟩ := receive_spec hp hlevel.knows hlevel.holds hpart
    rw [heq] at hstep
    cases received with
    | unmatched =>
      cases hstep
      exact ⟨a, hsame⟩
    | waiting r' =>
      obtain ⟨hknows, hholds, hheight, hle⟩ := htracks
      cases hstep
      rw [hholds.hash]
      exact ⟨a, h.absorb_update (hlevel.advance hknows hholds hheight hle) hearly⟩
    | next r' =>
      obtain ⟨hknows, hholds, hheight, hle⟩ := htracks
      obtain ⟨t', out', a', hask, hsane⟩ :=
        h.askNext (hlevel.advance hknows hholds hheight hle) fun hnot => absurd hnot hearly
      cases hask.symm.trans hstep
      exact ⟨a', hsane⟩
    | whole r' =>
      obtain ⟨hholds, hall⟩ := htracks
      have hassembled := assemble_eq hp hholds hall hrandom hdecrypt hhash
      cases hstep
      rw [hassembled, hholds.hash]
      refine ⟨a, h.absorb (fun hash r'' hr'' => ?_) (h.queue.append_other ?_)
        (fun hnot => absurd hnot hearly) (fun _ _ => cons_ne_nil _ _) ?_⟩
      · obtain ⟨-, ⟨⟩⟩ | ⟨-, hold⟩ := update_cases hr''
        exact h.receiver hash r'' hold
      · intro plain hplain
        cases mem_singleton.1 hplain
      · intro data hdata
        exact mem_singleton.1 hdata

omit hp in
theorem hmuFor_array (t : IncomingTable) (hash : Bytes) (segment hm : Value) :
    t.hmuFor hash (.array [segment, hm]) = (t hash).map fun r => (r, segment.asInt, hm.bytes) := by
  unfold IncomingTable.hmuFor
  cases t hash <;> rfl

theorem Sane.handleHMU (hsize : r₀.parts.length < 2 ^ 63)
    (h : Sane r₀ payload m a w) (hearly : ¬w.Early) {hash : Bytes} {v : Value}
    (hlater : (Down.hmu hash v).Later r₀ m) (hstep : w.receiver.handleHMU hash v = .ok (t, out)) :
    ∃ a', Sane r₀ payload m a' (w.absorb t out) := by
  obtain ⟨rfl, segment, hle, hin, rfl⟩ := hlater
  rw [IncomingTable.handleHMU, hmuFor_array] at hstep
  cases hr : w.receiver r₀.hash with
  | none =>
    rw [hr] at hstep
    cases hstep
    exact ⟨a, h.absorb_nil h.receiver fun hearly => (h.fresh hearly).2⟩
  | some r =>
    have hsegment : segment < 2 ^ 63 := by
      have := Nat.le_mul_of_pos_right segment (show 0 < resourceHashmapMaxLen by decide)
      omega
    obtain ⟨-, hlevel⟩ := h.receiver _ r hr
    obtain ⟨r', heq, hlevel'⟩ := hlevel.hashmapUpdate hp hin hle h.queue.le
    have heq' : r.hashmapUpdate (Value.ofNat segment).asInt
        (Value.bin (r₀.segmentHashes segment).flatten).bytes = .ok r' := by
      rw [Value.asInt_ofNat hsegment]
      exact heq
    rw [hr, map_some] at hstep
    dsimp only at hstep
    rw [heq'] at hstep
    obtain ⟨t', out', a', hask, hsane⟩ := h.askNext hlevel' fun hnot => absurd hnot hearly
    cases hask.symm.trans hstep
    exact ⟨a', hsane⟩

omit hp in
theorem level_retry {r : IncomingResource} (h : Level r₀ m a r) : Level r₀ m a r.retry := by
  have hwindow : (if r.windowMin < r.window then r.window - 1 else r.window) ≤
      resourceWindowMaxSlow := by
    have hbound := h.holds.window
    split <;> omega
  exact h.advance ⟨h.knows.height_le, h.knows.set, h.knows.hashes⟩
    (h.holds.withWindow hwindow r.windowMin (r.retries + 1) false) rfl (Int.le_refl _)

omit hp in
theorem Sane.handleTick (h : Sane r₀ payload m a w)
    (hstep : IncomingTable.handleTick (fun _ => true) [r₀.hash] w.receiver = .ok (t, out)) :
    ∃ a', Sane r₀ payload m a' (w.absorb t out) := by
  rw [IncomingTable.handleTick] at hstep
  split at hstep
  · cases hstep
    exact ⟨a, h.absorb_nil h.receiver fun hearly => (h.fresh hearly).2⟩
  · rename_i r hr
    obtain ⟨-, hlevel⟩ := h.receiver _ r hr
    rw [if_pos rfl] at hstep
    split at hstep
    · cases hstep
      exact ⟨a, h.absorb_erase⟩
    · obtain ⟨t', out', a', hask, hsane⟩ :=
        h.askNext (level_retry hlevel) fun hearly => (h.fresh hearly).2 _ r hr
      rw [hask] at hstep
      dsimp only [IncomingTable.handleTick] at hstep
      rw [append_nil] at hstep
      cases hstep
      exact ⟨a', hsane⟩

theorem Sane.step (hsize : r₀.parts.length < 2 ^ 63) {random : Bytes}
    (hrandom : random.length = resourceRandomHashLen)
    (hdecrypt : c.decrypt r₀.data = some (random ++ payload))
    (hhash : r₀.hash = c.sum256 (payload ++ r₀.randomHash)) (h : Sane r₀ payload m a w) {sdu : Int}
    {e : Move} {w' : World} (hstep : w.step c sdu r₀.hash e = some w') :
    ∃ m' a', Sane r₀ payload m' a' w' := by
  revert hstep
  fun_cases World.step c sdu r₀.hash w e with
  | case1 | case2 | case4 | case6 | case8 | case11 => rintro ⟨⟩
  | case3 acc d rest hd t out heq =>
    have hpop := h.popDown hd
    have hchannel := h.channel
    rw [hd] at hchannel
    rintro ⟨⟩
    cases d with
    | adv v =>
      obtain ⟨rfl, -⟩ := hchannel
      have hfresh := (h.fresh (.inl ⟨_, hd ▸ mem_cons_self⟩)).1
      exact ⟨m, hpop.handleAdv hp hsize hfresh heq⟩
    | part data =>
      have hearly := h.not_early hd hchannel.1 hchannel.2
      exact ⟨m, hpop.handlePart hp hrandom hdecrypt hhash hearly hchannel.1 heq⟩
    | hmu hash v =>
      have hearly := h.not_early hd hchannel.1 hchannel.2
      exact ⟨m, hpop.handleHMU hp hsize hearly hchannel.1 heq⟩
  | case5 d rest hd =>
    rintro ⟨⟩
    exact ⟨m, a, h.popDown hd⟩
  | case7 u rest hu =>
    rintro ⟨⟩
    obtain ⟨m', hsane⟩ := h.handleUp hp hu
    exact ⟨m', a, hsane⟩
  | case9 u rest hu =>
    rintro ⟨⟩
    exact ⟨m, a, h.popUp hu⟩
  | case10 =>
    intro hstep
    obtain ⟨r, hr, rfl⟩ := map_eq_some_iff.1 hstep
    exact ⟨m, a, h.tickSender hr⟩
  | case12 t out heq =>
    rintro ⟨⟩
    exact ⟨m, h.handleTick heq⟩

theorem length_parts_le : r₀.parts.length ≤ r₀.data.length := by
  have hpos : ∀ n ∈ r₀.parts.map length, 1 ≤ n := by
    intro n hn
    obtain ⟨part, hpart, rfl⟩ := mem_map.1 hn
    exact length_pos_of_ne_nil (hp.nonempty part hpart)
  have hle := length_le_sum_of_one_le _ hpos
  rw [length_map] at hle
  rw [← hp.whole, length_flatten]
  exact hle

end

/-- Between an honest sender and an honest receiver a transfer goes wrong only by being given up.
In every run the sender does not cancel for a sequencing or a hash map error; what the next request
asks for lies in its window; every part the receiver has stored is the sender's part of that index;
what the receiver hands over is the payload; and the sender reports the delivery after that. -/
theorem transfer_faithful {c : Crypto} {l : Link} {payload enc random : Bytes} {draws : List Bytes}
    {requestID : Option Bytes} {isResponse : Bool} {r₀ : OutgoingResource} {sdu : Int} {w : World}
    (hsdu : 0 < l.sdu) (hlength : enc.length < 2 ^ 63)
    (hrandom : random.length = resourceRandomHashLen)
    (hdecrypt : c.decrypt enc = some (random ++ payload))
    (hsend : c.sendResource l payload enc draws requestID isResponse = .ok r₀)
    (h : Reaches (World.step c sdu r₀.hash) (fun _ _ => True) (World.start r₀) w) :
    w.verdict ≠ some (.error .sequencing) ∧ w.verdict ≠ some (.error .hmu) ∧
      (∀ r plain rest, w.sender = some r → w.toSender = .request plain :: rest →
        ∃ req, parseResourceRequest plain = some req ∧ ∀ mh ∈ req.wanted, ∃ i,
          r.recvMinHeight ≤ i ∧ i < r.recvMinHeight + resourceCollisionGuard ∧
            r.mapHashes[i]? = some mh) ∧
      (∀ hash r i, w.receiver hash = some r → i < r.totalParts → r.parts i ≠ [] →
        r₀.parts[i]? = some (r.parts i)) ∧
      (∀ data ∈ w.completed, data = payload) ∧
      (w.verdict = some (.ok ()) → payload ∈ w.completed) := by
  obtain ⟨hp, rfl, -, hheight, hhash, -⟩ := sendResource_prepared hsdu hsend
  have hsize := length_parts_le hp
  have hstart : ∃ m a, Sane r₀ payload m a (World.start r₀) := ⟨0, 0, sane_start hheight⟩
  obtain ⟨m, a, hsane⟩ : ∃ m a, Sane r₀ payload m a w := by
    apply @Reaches.invariant _ _ _ _ (fun w => ∃ m a, Sane r₀ payload m a w) _ _ h hstart
    rintro s e t ⟨m, a, hs⟩ - hstep
    exact hs.step hp (by omega) hrandom hdecrypt hhash hstep
  refine ⟨fun hv => (hsane.verdict _ hv).1 rfl, fun hv => (hsane.verdict _ hv).2.1 rfl, ?_, ?_,
    hsane.completed, fun hv => ?_⟩
  · intro r plain rest hr hu
    obtain ⟨req, -, hparse, -, hwanted, -⟩ := hsane.head hp hu hr
    have hcount : r.mapHashes.length = r.parts.length := by
      rw [(prepared_of_bare hp (hsane.sender r hr).1).hashes, length_map]
    refine ⟨req, hparse, fun mh hmh => ?_⟩
    obtain ⟨i, hlow, hhigh, hi, rfl⟩ := hwanted mh hmh
    refine ⟨i, hlow, hhigh, ?_⟩
    rw [getD_eq_getElem _ _ (by omega), getElem?_eq_getElem]
  · intro hash r i hr hi hstored
    have hholds := (hsane.receiver hash r hr).2.holds
    have hi' : i < r₀.parts.length := hholds.total ▸ hi
    obtain hnil | hown := hholds.stored i hi
    · exact absurd hnil hstored
    · rw [hown, getD_eq_getElem _ _ hi', getElem?_eq_getElem]
  · obtain ⟨data, hdata⟩ := exists_mem_of_ne_nil _ ((hsane.verdict _ hv).2.2 rfl)
    exact hsane.completed data hdata ▸ hdata

/-- Hashes that tell the first bytes apart, and no encryption. -/
def frontCrypto : Crypto where
  sum256 := fun data => (data ++ replicate fullHashLen 0).take fullHashLen
  length_sum256 := fun data => by
    rw [length_take, length_append, length_replicate]
    omega
  decrypt := some
  bunzip2 := some

/-- Twelve bytes in three parts, the first request lost. -/
theorem transfer_faithful_twelve_bytes :
    ∃ r₀ w, frontCrypto.sendResource ⟨[], [], 40, 0⟩ [1, 2, 3, 4, 5, 6, 7, 8]
        [9, 9, 9, 9, 1, 2, 3, 4, 5, 6, 7, 8] [[7, 7, 7, 7]] none false = .ok r₀ ∧
      Reaches (World.step frontCrypto 4 r₀.hash) (fun _ _ => True) (World.start r₀) w ∧
      w.verdict = some (.ok ()) ∧ [1, 2, 3, 4, 5, 6, 7, 8] ∈ w.completed := by
  have hrun : ((frontCrypto.sendResource ⟨[], [], 40, 0⟩ [1, 2, 3, 4, 5, 6, 7, 8]
      [9, 9, 9, 9, 1, 2, 3, 4, 5, 6, 7, 8] [[7, 7, 7, 7]] none false).toOption.bind fun r₀ =>
        (replay (World.step frontCrypto 4 r₀.hash) (World.start r₀)
          [.deliverDown takesAll, .loseUp, .receiverTick, .deliverUp, .deliverDown takesAll,
            .deliverDown takesAll, .deliverDown takesAll, .deliverUp]).map fun w =>
          w.verdict.bind Except.toOption) = some (some ()) := by decide +kernel
  obtain ⟨r₀, hr₀, hrest⟩ := bind_eq_some_iff.1 hrun
  have hsend : frontCrypto.sendResource ⟨[], [], 40, 0⟩ [1, 2, 3, 4, 5, 6, 7, 8]
      [9, 9, 9, 9, 1, 2, 3, 4, 5, 6, 7, 8] [[7, 7, 7, 7]] none false = .ok r₀ := by
    revert hr₀
    cases frontCrypto.sendResource ⟨[], [], 40, 0⟩ [1, 2, 3, 4, 5, 6, 7, 8]
      [9, 9, 9, 9, 1, 2, 3, 4, 5, 6, 7, 8] [[7, 7, 7, 7]] none false with rintro ⟨⟩
    | ok r => rfl
  obtain ⟨w, hreach, hview⟩ := exists_reaches_of_replay hrest
  have hok : w.verdict = some (.ok ()) := by
    obtain ⟨v, hv, hsuccess⟩ := bind_eq_some_iff.1 hview
    rw [hv]
    cases v with
    | error err => cases hsuccess
    | ok u => rfl
  refine ⟨r₀, w, hsend, hreach, hok, ?_⟩
  exact (transfer_faithful (by decide) (by decide) (show [9, 9, 9, 9].length = _ from rfl) rfl hsend
    hreach).2.2.2.2.2 hok

end MeshsatHub.Rns
