import MeshsatHub.Provisioning.Stash

/-!
# Claims of provisioning codes

Whether a code is single use, whether a bundle that is handed out is the one in the bridge row, and
whether a code that was returned stays claimable. A call rewrites or blanks the stash without
looking whether it is still the one it read, so none of the three holds in every interleaving.
-/

namespace MeshsatHub.Provisioning
open Interleaving Runs List
variable {s : Hub} {g : Store} {l l' : Call} {i : Nat}
variable {nonce other : Nat} {stash : Stash} {handler : Handler}

theorem exists_of_holds (h : g.holds nonce) : ∃ stash ∈ g.stash, stash.nonce = nonce := by
  simpa [Store.holds, Option.any_eq_true] using h

theorem ne_of_not_busy (h : s.busy nonce = false) :
    ∀ m ∈ s.calls, ∀ stash ∈ m.holding, stash.nonce ≠ nonce := by
  simpa [Hub.busy, Option.any_eq_false] using h

theorem lt_of_made (h : stash.Made g) : stash.nonce < g.codes.length := by
  obtain ⟨code, hcode, -⟩ := h
  exact (List.getElem?_eq_some_iff.1 hcode).1

theorem acted_same (h : HubInv s) (hi : s.calls[i]? = some l) (hl' : l'.Inv s.shared)
    (hbetween : ∀ m ∈ s.calls, Between l m → Between l' m) : HubInv ⟨s.shared, s.calls.set i l'⟩ :=
  h.acted hi h.shared hl' fun m hm hinv hb => ⟨hinv, hbetween m hm hb⟩

def Store.generated (g : Store) (direct : Bool) : Store :=
  { g with
    stash := some ⟨g.codes.length, g.clock, false⟩
    codes := g.codes ++ [⟨g.clock, direct⟩] }

theorem later_generated (g : Store) (direct : Bool) : Later g (g.generated direct) where
  codes nonce code hcode := by
    have hlt := (List.getElem?_eq_some_iff.1 hcode).1
    exact (getElem?_append_left hlt).trans hcode
  clock := Int.le_refl _

theorem generated_last (g : Store) (direct : Bool) :
    (g.generated direct).codes[g.codes.length]? = some ⟨g.clock, direct⟩ :=
  getElem?_concat_length

theorem StoreInv.generated (h : StoreInv g) (direct : Bool) : StoreInv (g.generated direct) where
  newest stash hs := by
    rw [mem_some hs]
    simp [Store.generated]
  made stash hs := by
    rw [mem_some hs]
    exact ⟨_, generated_last g direct, rfl⟩
  marked stash hs hinst := by
    rw [mem_some hs] at hinst
    exact nomatch hinst
  unclaimed stash hs hclaimed := by
    rw [mem_some hs] at hclaimed
    exact Nat.lt_irrefl _ (h.claimedMade _ hclaimed)
  installs nonce hn := by
    have hlt := h.installs nonce hn
    simp only [Store.generated, length_append, length_singleton]
    omega
  claimedOnce := h.claimedOnce
  claimedMade nonce hn := by
    have hlt := h.claimedMade nonce hn
    simp only [Store.generated, length_append, length_singleton]
    omega
  handed := h.handed
  kept nonce hclaim := by
    obtain ⟨code, hcode, -⟩ := hclaim
    have hlt := (List.getElem?_eq_some_iff.1 hcode).1
    by_cases hnew : nonce = g.codes.length
    · exact .inl ⟨_, rfl, hnew.symm⟩
    · simp only [Store.generated, length_append, length_singleton] at hlt
      refine .inr (.inr (.inr ?_))
      simp only [Store.generated, length_append, length_singleton]
      omega
  returned nonce hn := (h.returned nonce hn).later (later_generated g direct)

section
variable (h : HubInv s)
include h

theorem acted_generate (hi : s.calls[i]? = some l) (direct : Bool)
    (hl' : l'.holding = none) (hknows : l'.Knows (s.shared.generated direct)) :
    HubInv ⟨s.shared.generated direct, s.calls.set i l'⟩ := by
  refine h.acted hi (h.shared.generated direct)
    (Call.Inv.of_idle hl' hknows) fun m _ hinv _ => ⟨?_, Between.of_idle hl'⟩
  exact hinv.later (later_generated _ direct) (fun _ _ hn => hn) fun _ _ hi => hi

theorem acted_take (hi : s.calls[i]? = some l) (hstash : stash ∈ s.shared.stash)
    (hbusy : s.busy stash.nonce = false)
    (hdirect : handler = .direct → s.shared.ForDirect stash.nonce) :
    HubInv ⟨s.shared, s.calls.set i (installStash handler stash (afterInstall handler stash))⟩ := by
  have hmade := h.shared.made stash hstash
  have hunclaimed := h.shared.unclaimed stash hstash
  have hholding : (installStash handler stash (afterInstall handler stash)).holding =
      some stash := by
    rw [installStash]
    cases stash.installed <;> cases handler <;> rfl
  refine acted_same h hi ⟨?_, ?_, ?_, ?_, ?_⟩ fun m hm _ => ?_
  · intro st hst
    rw [hholding] at hst
    exact mem_some hst ▸ hmade
  · intro st hst
    rw [hholding] at hst
    exact mem_some hst ▸ hunclaimed
  · intro st hst
    rw [installStash] at hst
    cases hinst : stash.installed with rw [hinst] at hst
    | false => exact nomatch hst
    | true =>
      have hmarked := h.shared.marked stash hstash hinst
      cases handler <;> exact .inl (mem_some hst ▸ hmarked)
  · intro st hst
    rw [installStash] at hst
    cases handler with
    | claim => cases hinst : stash.installed <;> rw [hinst] at hst <;> exact nomatch hst
    | direct =>
      have hst' : st = stash := by
        cases hinst : stash.installed <;> rw [hinst] at hst <;> exact mem_some hst
      exact hst' ▸ hdirect rfl
  · rw [installStash]
    cases stash.installed <;> cases handler <;> trivial
  · intro st hst st' hst'
    rw [hholding] at hst
    rw [mem_some hst]
    exact (ne_of_not_busy hbusy m hm st' hst').symm

/-- `ProvisionQR` returns the nonce. -/
theorem acted_answer (hi : s.calls[i]? = some (.answer nonce)) :
    HubInv ⟨{ s.shared with returned := s.shared.returned ++ [nonce] }, s.calls.set i .done⟩ := by
  have hknows : s.shared.ForClaim nonce := (h.call hi).knows
  refine h.acted hi ?_ (Call.Inv.of_idle rfl trivial)
    fun m _ hm _ => ⟨hm.stay rfl rfl rfl rfl, Between.of_idle rfl⟩
  exact { h.shared with
      returned := all_mem_snoc h.shared.returned hknows }

theorem acted_findStash (hi : s.calls[i]? = some (.findStash nonce))
    (hstash : s.shared.stash = some stash) (hok : (!s.shared.holds nonce || !s.busy nonce))
    (hop : (if stash.nonce ≠ nonce then some (s.shared, Call.done)
      else if stash.createdAt + provisionTTL < s.shared.clock
      then some (s.shared, .expire nonce)
      else some (s.shared, installStash .claim stash (afterInstall .claim stash))) = some (g, l')) :
    HubInv ⟨g, s.calls.set i l'⟩ := by
  split at hop
  case isTrue =>
    cases hop
    exact acted_same h hi (Call.Inv.of_idle rfl trivial) fun _ _ _ => Between.of_idle rfl
  case isFalse hnonce =>
    obtain rfl : stash.nonce = nonce := by simpa using hnonce
    split at hop
    case isTrue hold =>
      cases hop
      refine acted_same h hi (Call.Inv.of_idle rfl ?_) fun _ _ _ => Between.of_idle rfl
      obtain ⟨code, hcode, heq⟩ := h.shared.made stash hstash
      exact ⟨code, hcode, heq ▸ hold⟩
    case isFalse =>
      cases hop
      have hbusy : s.busy stash.nonce = false := by simpa [hstash, Store.holds] using hok
      exact acted_take h hi hstash hbusy nofun

theorem acted_expire (hi : s.calls[i]? = some (.expire nonce)) (hholds : s.shared.holds nonce) :
    HubInv ⟨{ s.shared with stash := none }, s.calls.set i .done⟩ := by
  obtain ⟨stash, hstash, rfl⟩ := exists_of_holds hholds
  have hexpired : s.shared.Expired stash.nonce := (h.call hi).knows
  refine h.acted hi ?_ (Call.Inv.of_idle rfl trivial)
    fun m _ hinv _ => ⟨hinv.stay rfl rfl rfl rfl, Between.of_idle rfl⟩
  exact
    { newest := nofun
      made := nofun
      marked := nofun
      unclaimed := nofun
      installs := h.shared.installs
      claimedOnce := h.shared.claimedOnce
      claimedMade := h.shared.claimedMade
      handed := h.shared.handed
      kept := by
        intro nonce hclaim
        obtain ⟨stash', hstash', rfl⟩ | hgone := h.shared.kept nonce hclaim
        · cases hstash'.symm.trans hstash
          exact .inr (.inr (.inl hexpired))
        · exact .inr hgone
      returned := h.shared.returned }

end

theorem StoreInv.le_of_holds (h : StoreInv g) (hholds : g.holds nonce)
    (hlt : other < g.codes.length) : other ≤ nonce := by
  obtain ⟨stash, hstash, rfl⟩ := exists_of_holds hholds
  have hnewest := h.newest stash hstash
  omega

theorem acted_setCredentials (h : HubInv s)
    (hi : s.calls[i]? = some (.setCredentials handler stash))
    (hholds : s.shared.holds stash.nonce) : HubInv ⟨{ s.shared with
        passwordHash := some stash.nonce
        installs := s.shared.installs ++ [stash.nonce] },
      s.calls.set i (.setCertificate handler stash)⟩ := by
  have hinv := h.call hi
  refine h.acted hi ?_ ?_ fun m hm hm' hb => ⟨?_, ?_⟩
  · obtain ⟨row, hrow, hnonce⟩ := exists_of_holds hholds
    exact { h.shared with
        marked := by
          intro row' hrow' _
          cases hrow'.symm.trans hrow
          exact congrArg some hnonce.symm
        installs := all_mem_snoc h.shared.installs (lt_of_made (hinv.made stash rfl)) }
  · refine ⟨hinv.made, hinv.unclaimed, ?_, ?_, trivial⟩
    · intro st hst
      exact .inl (congrArg some (congrArg Stash.nonce (mem_some hst)).symm)
    · intro st hst
      cases handler with
      | claim => exact nomatch hst
      | direct => exact hinv.direct st hst
  · -- every other call is at work on an older code
    refine hm'.later (Later.same rfl (Int.le_refl _)) (fun _ _ hn => hn) fun st hst _ => ?_
    have hholding : st ∈ m.holding := by
      cases m <;> first | exact hst | exact nomatch hst
    have hle := h.shared.le_of_holds hholds (lt_of_made (hm'.made st hholding))
    have hne := hb stash rfl st hholding
    exact .inr ⟨stash.nonce, by simp, by omega⟩
  · exact hb.of_holding fun st hst => hst

theorem acted_setCertificate (h : HubInv s)
    (hi : s.calls[i]? = some (.setCertificate handler stash)) :
    HubInv ⟨{ s.shared with certificate := some stash.nonce },
      s.calls.set i (.mark handler stash)⟩ := by
  have hinv := h.call hi
  refine h.acted hi { h.shared with } ?_ fun m _ hm hb => ⟨?_, ?_⟩
  · refine Call.Inv.stay (hinv.goOn (fun _ h => h) (fun _ h => h) ?_ trivial) rfl rfl rfl rfl
    cases handler with
    | claim => exact nofun
    | direct => exact fun _ hst => hst
  · exact hm.stay rfl rfl rfl rfl
  · exact hb.of_holding fun _ hst => hst

theorem acted_mark (h : HubInv s) (hi : s.calls[i]? = some (.mark handler stash))
    (hholds : s.shared.holds stash.nonce) :
    HubInv ⟨{ s.shared with stash := some { stash with installed := true } },
      s.calls.set i (afterInstall handler stash)⟩ := by
  have hinv := h.call hi
  obtain ⟨row, hrow, hnonce⟩ := exists_of_holds hholds
  have hinstalled : s.shared.passwordHash = some stash.nonce := by
    obtain heq | ⟨later, hmem, hlt⟩ := hinv.installed stash rfl
    · exact heq
    · have hle := h.shared.le_of_holds hholds (h.shared.installs later hmem)
      omega
  refine h.acted hi ?_ ?_ fun m _ hm hb => ⟨?_, ?_⟩
  · exact { h.shared with
        newest := by
          intro st hst
          rw [mem_some hst]
          exact hnonce ▸ h.shared.newest row hrow
        made := by
          intro st hst
          rw [mem_some hst]
          exact hinv.made stash rfl
        marked := by
          intro st hst _
          rw [mem_some hst]
          exact hinstalled
        unclaimed := by
          intro st hst
          rw [mem_some hst]
          exact hinv.unclaimed stash rfl
        kept := by
          intro nonce hclaim
          obtain ⟨row', hrow', rfl⟩ | hgone := h.shared.kept nonce hclaim
          · cases hrow'.symm.trans hrow
            exact .inl ⟨_, rfl, hnonce.symm⟩
          · exact .inr hgone }
  · refine Call.Inv.stay (hinv.goOn ?_ ?_ ?_ ?_) rfl rfl rfl rfl
    · cases handler <;> exact fun _ hst => hst
    · cases handler <;> exact fun _ hst => hst
    · cases handler with
      | claim => exact nofun
      | direct => exact fun _ hst => hst
    · cases handler <;> trivial
  · exact hm.stay rfl rfl rfl rfl
  · refine hb.of_holding fun st hst => ?_
    cases handler <;> exact hst

def Store.handOut (g : Store) (handler : Handler) (nonce : Nat) : Store :=
  { g with
    stash := none
    handouts := g.handouts ++ [⟨handler, nonce, g.passwordHash, g.installs⟩] }

theorem claimed_handOut_claim (g : Store) (nonce : Nat) :
    (g.handOut .claim nonce).claimed = g.claimed ++ [nonce] := by
  simp [Store.handOut, Store.claimed, Handout.claimed]

theorem claimed_handOut_direct (g : Store) (nonce : Nat) :
    (g.handOut .direct nonce).claimed = g.claimed := by
  simp [Store.handOut, Store.claimed, Handout.claimed]

theorem mem_claimed_handOut (h : other ∈ (g.handOut handler nonce).claimed) :
    other ∈ g.claimed ∨ other = nonce := by
  cases handler with
  | claim =>
    rw [claimed_handOut_claim, mem_append, mem_singleton] at h
    exact h
  | direct =>
    rw [claimed_handOut_direct] at h
    exact .inl h

theorem subset_claimed_handOut (g : Store) (handler : Handler) (nonce : Nat) :
    g.claimed ⊆ (g.handOut handler nonce).claimed := by
  cases handler with
  | claim =>
    rw [claimed_handOut_claim]
    exact subset_append_left _ _
  | direct =>
    rw [claimed_handOut_direct]
    exact Subset.refl _

theorem StoreInv.handOut (h : StoreInv g) (hholds : g.holds stash.nonce)
    (hmade : stash.Made g) (hunclaimed : stash.nonce ∉ g.claimed)
    (hinstalled : g.Installed stash.nonce) (hdirect : handler = .direct → g.ForDirect stash.nonce) :
    StoreInv (g.handOut handler stash.nonce) where
  newest := nofun
  made := nofun
  marked := nofun
  unclaimed := nofun
  installs := h.installs
  claimedOnce := by
    cases handler with
    | claim =>
      rw [claimed_handOut_claim, nodup_append]
      refine ⟨h.claimedOnce, by simp, ?_⟩
      intro a ha b hb hab
      exact hunclaimed (mem_singleton.1 hb ▸ hab ▸ ha)
    | direct =>
      rw [claimed_handOut_direct]
      exact h.claimedOnce
  claimedMade nonce hn := by
    obtain hn | rfl := mem_claimed_handOut hn
    · exact h.claimedMade nonce hn
    · exact lt_of_made hmade
  handed := all_mem_snoc h.handed hinstalled
  kept nonce hclaim := by
    obtain ⟨row, hrow, rfl⟩ | hclaimed | hgone := h.kept nonce hclaim
    · obtain ⟨row', hrow', hnonce⟩ := exists_of_holds hholds
      cases hrow.symm.trans hrow'
      cases handler with
      | claim =>
        refine .inr (.inl ?_)
        rw [claimed_handOut_claim, hnonce]
        simp
      | direct => exact absurd (hnonce ▸ hclaim) (Store.not_forClaim (hdirect rfl))
    · exact .inr (.inl (subset_claimed_handOut g handler _ hclaimed))
    · exact .inr (.inr hgone)
  returned := h.returned

theorem acted_blank (h : HubInv s) (hi : s.calls[i]? = some (.blank handler stash))
    (hholds : s.shared.holds stash.nonce) :
    HubInv ⟨s.shared.handOut handler stash.nonce, s.calls.set i .done⟩ := by
  have hinv := h.call hi
  refine h.acted hi ?_ (Call.Inv.of_idle rfl trivial) fun m _ hm hb => ⟨?_, Between.of_idle rfl⟩
  · apply h.shared.handOut hholds (hinv.made stash rfl) (hinv.unclaimed stash rfl)
      (hinv.installed stash rfl)
    rintro rfl
    exact hinv.direct stash rfl
  · refine hm.later (Later.same rfl (Int.le_refl _)) (fun st hst hn hclaimed => ?_) fun _ _ hi => hi
    obtain hclaimed | heq := mem_claimed_handOut hclaimed
    · exact hn hclaimed
    · exact hb stash rfl st hst heq.symm

theorem operate_inv (h : HubInv s) (hi : s.calls[i]? = some l) {op : Op}
    (hok : orderly s (.act i op)) (hop : operate s.shared op.live l = some (g, l')) :
    HubInv ⟨g, s.calls.set i l'⟩ := by
  have hinv := h.call hi
  have hdone : HubInv ⟨s.shared, s.calls.set i .done⟩ :=
    acted_same h hi (Call.Inv.of_idle rfl trivial) fun _ _ _ => Between.of_idle rfl
  simp only [orderly, hi] at hok
  revert hop
  fun_cases operate s.shared op.live l with
  | case1 handler =>
    cases handler with rintro ⟨⟩
    | claim => exact acted_generate h hi false rfl ⟨_, generated_last _ _, rfl⟩
    | direct => exact acted_generate h hi true rfl ⟨_, generated_last _ _, rfl⟩
  | case2 nonce =>
    rintro ⟨⟩
    exact acted_answer h hi
  | case4 nonce stash hstash =>
    rintro ⟨⟩
    obtain ⟨rfl, hbusy⟩ : stash.nonce = nonce ∧ s.busy nonce = false := by
      simpa [hstash, Store.holds] using hok
    exact acted_take h hi hstash hbusy fun _ => hinv.knows
  | case6 nonce stash hstash | case7 nonce stash hstash | case8 nonce stash hstash =>
    -- the stash is found: another code's, too old, or the one asked for
    intro hop
    apply acted_findStash h hi hstash hok
    simp [*]
  | case9 nonce =>
    rintro ⟨⟩
    exact acted_expire h hi hok
  | case10 handler stash =>
    rintro ⟨⟩
    exact acted_setCredentials h hi hok
  | case11 handler stash =>
    rintro ⟨⟩
    exact acted_setCertificate h hi
  | case12 handler stash =>
    rintro ⟨⟩
    exact acted_mark h hi hok
  | case13 stash =>
    rintro ⟨⟩
    cases op.live with
    | false => exact hdone
    | true =>
      refine acted_same h hi (hinv.goOn (fun _ hst => hst) (fun _ hst => hst) nofun trivial) ?_
      exact fun _ _ hb => hb.of_holding fun _ hst => hst
  | case14 handler stash =>
    rintro ⟨⟩
    exact acted_blank h hi hok
  | case15 => exact nofun
  | _ =>
    rintro ⟨⟩
    exact hdone

theorem step_inv {s' : Hub} {e : Event Arrival Op} (h : HubInv s) (hok : orderly s e)
    (hstep : step s e = some s') : HubInv s' := by
  obtain ⟨b, g, l, harrive⟩ | ⟨i, op, l, g, l', hi, hop⟩ := step_cases hstep
  · cases b with
    | _ =>
      cases harrive
      exact h.begun h.shared (Call.Inv.of_idle rfl trivial)
        fun m _ hm => ⟨hm, Std.Symm.symm _ _ (Between.of_idle rfl)⟩
  · obtain ⟨hnow, hop⟩ := Option.ite_none_left_eq_some.1 hop
    have htick := tick_inv h (Int.not_lt.1 hnow)
    exact operate_inv (s := ⟨{ s.shared with clock := op.now }, s.calls⟩) htick hi hok hop

theorem initial_inv : HubInv initial :=
  Interleaving.Inv.nil
    { newest := nofun
      made := nofun
      marked := nofun
      unclaimed := nofun
      installs := nofun
      claimedOnce := nodup_nil
      claimedMade := nofun
      handed := nofun
      kept := fun _ ⟨_, hcode, _⟩ => nomatch hcode
      returned := nofun }

theorem StoreInv.claimable (h : StoreInv g) (hkept : g.Kept nonce) :
    g.Claimable nonce ∨ nonce ∈ g.claimed ∨ g.Expired nonce ∨ nonce + 1 < g.codes.length := by
  obtain ⟨stash, hstash, rfl⟩ | hgone := hkept
  · by_cases hold : stash.createdAt + provisionTTL < g.clock
    · obtain ⟨code, hcode, heq⟩ := h.made stash hstash
      exact .inr (.inr (.inl ⟨code, hcode, heq ▸ hold⟩))
    · exact .inl ⟨stash, hstash, rfl, Int.not_lt.1 hold⟩
  · exact .inr hgone

/-- In every run that keeps the order, with the broker answering as it likes, each
nonce yields a bundle in at most one claim, a bundle handed out is the one in the
bridge row unless a later one was installed, and a nonce that was returned stays
claimable until it is claimed, expires or a newer code is generated. -/
theorem codes_used_once_and_kept {s : Hub}
    (hrun : Reaches step (fun s e => orderly s e = true) initial s) :
    ClaimedOnce s.shared ∧ HandedInstalled s.shared ∧ StaysClaimable s.shared := by
  have hinv : HubInv s := hrun.invariant initial_inv fun _ _ _ => step_inv
  refine ⟨hinv.shared.claimedOnce, hinv.shared.handed, ?_⟩
  intro nonce hreturned
  apply hinv.shared.claimable
  exact hinv.shared.kept nonce (hinv.shared.returned nonce hreturned)

/-- An operation at a time, with a broker that accepts. -/
def op (now : Int) : Op := ⟨now, true⟩

/-- A code is claimed while the broker refuses and claimed again when it accepts;
then a newer one is generated, and the direct endpoint hands a third one out. -/
def retriedClaim : List (Event Arrival Op) :=
  [.start .provisionQR, .act 0 (op 10), .act 0 (op 11),
    .start (.claimProvision 0), .act 1 (op 20), .act 1 (op 21), .act 1 (op 22), .act 1 (op 23),
    .act 1 ⟨24, false⟩,
    .start (.claimProvision 0), .act 2 (op 30), .act 2 (op 31), .act 2 (op 32),
    .start .provisionQR, .act 3 (op 40), .act 3 (op 41),
    .start .provision, .act 4 (op 50), .act 4 (op 51), .act 4 (op 52), .act 4 (op 53),
    .act 4 (op 54), .act 4 (op 55)]

theorem codes_used_once_and_kept_retriedClaim :
    ∃ s : Hub, Reaches step (fun s e => orderly s e = true) initial s ∧
      (s.shared.returned, s.shared.claimed, s.shared.passwordHash) = ([0, 1], [0], some 2) ∧
      ClaimedOnce s.shared ∧ HandedInstalled s.shared ∧ StaysClaimable s.shared := by
  exact exists_reaches_and_of_decide retriedClaim (by decide +kernel)
    fun _ hrun => codes_used_once_and_kept hrun

/-- Two claims of one code that read the stash before either blanks it. -/
def doubleClaim : List (Event Arrival Op) :=
  [.start .provisionQR, .act 0 (op 10), .act 0 (op 11),
    .start (.claimProvision 0), .start (.claimProvision 0), .act 1 (op 20), .act 2 (op 20),
    .act 1 (op 21), .act 1 (op 22), .act 1 (op 23), .act 1 (op 24), .act 1 (op 25),
    .act 2 (op 31), .act 2 (op 32), .act 2 (op 33), .act 2 (op 34), .act 2 (op 35)]

/-- The claim of an older code that installs its bundle after a newer one was
installed and before the newer bundle is handed out. -/
def lateInstall : List (Event Arrival Op) :=
  [.start .provisionQR, .act 0 (op 10), .act 0 (op 11),
    .start (.claimProvision 0), .act 1 (op 20),
    .start .provisionQR, .act 2 (op 30), .act 2 (op 31),
    .start (.claimProvision 1), .act 3 (op 40), .act 3 (op 41), .act 3 (op 42), .act 3 (op 43),
    .act 1 (op 50), .act 3 (op 60), .act 3 (op 61)]

/-- The claim of an older code that blanks the stash after a newer code was
returned. -/
def lateBlank : List (Event Arrival Op) :=
  [.start .provisionQR, .act 0 (op 10), .act 0 (op 11),
    .start (.claimProvision 0), .act 1 (op 20), .act 1 (op 21), .act 1 (op 22), .act 1 (op 23),
    .act 1 (op 24),
    .start .provisionQR, .act 2 (op 30), .act 2 (op 31), .act 1 (op 32)]

/-- The newest returned code is gone though it was neither claimed nor too old. -/
def lost (g : Store) : Bool :=
  g.stash.isNone && g.returned.any fun nonce => !g.claimed.contains nonce &&
    decide (nonce + 1 = g.codes.length) &&
      g.codes[nonce]?.all fun code => decide (g.clock ≤ code.createdAt + provisionTTL)

theorem not_staysClaimable_of_lost (h : lost g) : ¬StaysClaimable g := by
  simp only [lost, Bool.and_eq_true, Option.isNone_iff_eq_none, any_eq_true,
    Bool.not_eq_true', contains_eq_mem, decide_eq_false_iff_not, decide_eq_true_eq,
    Option.all_eq_true] at h
  obtain ⟨hstash, nonce, hreturned, ⟨hunclaimed, hnewest⟩, hage⟩ := h
  intro hstays
  obtain ⟨stash, hmem, -⟩ | hclaimed | ⟨code, hcode, hlt⟩ | hnewer := hstays nonce hreturned
  · exact nomatch hstash.symm.trans hmem
  · exact hunclaimed hclaimed
  · have hle := hage code hcode
    omega
  · omega

/-- Without the order a nonce yields two bundles, a bundle is handed out whose
password the bridge row no longer has, and a fresh code is silently dead. -/
theorem older_claims_break_codes :
    (∃ s : Hub, Reaches step (fun _ _ => True) initial s ∧ ¬ClaimedOnce s.shared) ∧
      (∃ s : Hub, Reaches step (fun _ _ => True) initial s ∧ ¬HandedInstalled s.shared) ∧
      ∃ s : Hub, Reaches step (fun _ _ => True) initial s ∧ ¬StaysClaimable s.shared := by
  refine ⟨?_, ?_, ?_⟩
  · exact exists_reaches_of_decide doubleClaim (by decide +kernel)
  · exact exists_reaches_of_decide lateInstall (by decide +kernel)
  · have hreplay : (replay step initial lateBlank).map
        (fun s => lost s.shared) = some true := by decide +kernel
    obtain ⟨s, hrun, hview⟩ := exists_reaches_of_replay hreplay
    exact ⟨s, hrun, not_staysClaimable_of_lost hview⟩

end MeshsatHub.Provisioning
