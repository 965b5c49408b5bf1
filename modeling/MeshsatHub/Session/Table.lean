import MeshsatHub.Foundations.Histories
import MeshsatHub.Session.RefreshTokens

/-!
# The table of refresh tokens and its answers

A token is `Renewed` after a logout of its user if it comes from a login after it.
-/

namespace MeshsatHub.Session
open Histories Interleaving Runs List
variable {log before after : List Entry} {e : Entry} {o : Owner} {t old new : String}

/-- A token that comes, through exchanges, from a login among the answers. -/
inductive Renewed (after : List Entry) (o : Owner) : String → Prop
  | opened {t : String} : Entry.opened o t ∈ after → Renewed after o t
  | exchanged {old new : String} : Renewed after o old → Entry.exchanged o old new ∈ after →
      Renewed after o new

/-- A token that is renewed after every logout of its user. -/
def Current (log : List Entry) (o : Owner) (t : String) : Prop :=
  ∀ before after, log = before ++ Entry.loggedOut o :: after → Renewed after o t

theorem Renewed.mono {after' : List Entry} (h : Renewed after o t) (hsub : after ⊆ after') :
    Renewed after' o t := by
  induction h with
  | opened hmem => exact Renewed.opened (hsub hmem)
  | exchanged _ hmem ih => exact Renewed.exchanged ih (hsub hmem)

theorem Current.snoc (h : Current log o t) (he : e ≠ Entry.loggedOut o) :
    Current (log ++ [e]) o t := by
  intro before after hsplit
  obtain ⟨-, -, heq⟩ | ⟨after', rfl, hlog⟩ := split_snoc hsplit
  · exact absurd heq.symm he
  · exact (h before after' hlog).mono (subset_append_left _ _)

theorem current_opened : Current (log ++ [Entry.opened o t]) o t := by
  intro before after hsplit
  obtain ⟨-, -, heq⟩ | ⟨after', rfl, -⟩ := split_snoc hsplit
  · exact nomatch heq
  · exact Renewed.opened (by simp)

theorem Current.exchanged (h : Current log o old) :
    Current (log ++ [Entry.exchanged o old new]) o new := by
  intro before after hsplit
  apply Renewed.exchanged (h.snoc (by simp) before after hsplit)
  obtain ⟨-, -, heq⟩ | ⟨after', rfl, -⟩ := split_snoc hsplit
  · exact nomatch heq
  · simp

theorem issuedBy_append (log log' : List Entry) :
    issuedBy (log ++ log') = issuedBy log ++ issuedBy log' := filterMap_append

theorem spentBy_append (log log' : List Entry) :
    spentBy (log ++ log') = spentBy log ++ spentBy log' := filterMap_append

theorem mem_issuedBy (he : e ∈ log) (ht : e.issued = some t) : t ∈ issuedBy log :=
  mem_filterMap.2 ⟨e, he, ht⟩

theorem eq_of_issued {e' : Entry} (hnodup : (issuedBy log).Nodup) (he : e ∈ log) (he' : e' ∈ log)
    (ht : e.issued = some t) (ht' : e'.issued = some t) : e = e' := by
  induction log with
  | nil => exact absurd he not_mem_nil
  | cons d log ih =>
    have hlog : (issuedBy log).Nodup := hnodup.sublist ((sublist_cons_self d log).filterMap _)
    have hfirst {d' : Entry} (hd : d.issued = some t) (hd' : d' ∈ log)
        (ht' : d'.issued = some t) : False := by
      rw [issuedBy, filterMap_cons_some hd, nodup_cons] at hnodup
      exact hnodup.1 (mem_issuedBy hd' ht')
    obtain rfl | hmem := mem_cons.1 he <;> rcases mem_cons.1 he' with rfl | hmem'
    · rfl
    · exact (hfirst ht hmem' ht').elim
    · exact (hfirst ht' hmem ht).elim
    · exact ih hlog hmem hmem'

theorem Renewed.not_stale (hnodup : (issuedBy (before ++ Entry.loggedOut o :: after)).Nodup)
    (h : Renewed after o t) : ¬Stale before after t := by
  have hafter : issuedBy (before ++ Entry.loggedOut o :: after) =
      issuedBy before ++ issuedBy after := issuedBy_append _ _
  rw [hafter, nodup_append] at hnodup
  obtain ⟨-, hnodup, hdisjoint⟩ := hnodup
  induction h with intro hstale
  | opened hmem =>
    cases hstale with
    | issued hbefore => exact hdisjoint _ hbefore _ (mem_issuedBy hmem rfl) rfl
    | exchanged _ hmem' => exact nomatch eq_of_issued hnodup hmem hmem' rfl rfl
  | exchanged _ hmem ih =>
    cases hstale with
    | issued hbefore => exact hdisjoint _ hbefore _ (mem_issuedBy hmem rfl) rfl
    | exchanged hold hmem' =>
      have heq := eq_of_issued hnodup hmem hmem' rfl rfl
      injection heq with _ holds _
      exact ih (holds ▸ hold)

/-- What holds of the table and the answers. -/
structure StoreInv (g : Store) : Prop where
  issuedOnce : (issuedBy g.log).Nodup
  spentOnce : (spentBy g.log).Nodup
  spentIssued : spentBy g.log ⊆ issuedBy g.log
  rowsIssued : ∀ r ∈ g.rows, r.token ∈ issuedBy g.log
  rowsUnspent : ∀ r ∈ g.rows, r.token ∉ spentBy g.log
  rowsOwner : ∀ r ∈ g.rows, ∀ r' ∈ g.rows, r.token = r'.token → r.owner = r'.owner
  rowsCurrent : ∀ r ∈ g.rows, Current g.log r.owner r.token
  spentRenewed : ∀ before after o, g.log = before ++ Entry.loggedOut o :: after →
    ∀ old new, Entry.exchanged o old new ∈ after → Renewed after o old

def Call.taken : Call → Option RefreshToken
  | .deleted row => some row
  | .vetted row => some row
  | _ => none

def Call.Presented (g : Store) : Call → Prop
  | .presenting token (some o) _ => token ∈ issuedBy g.log ∧
      ∀ r ∈ g.rows, r.token = token → r.owner = o
  | .found owner (some o) _ => owner = o
  | .unknown _ (some _) _ => False
  | _ => True

structure Call.Inv (g : Store) (l : Call) : Prop where
  issued : ∀ r, l.refreshing = some r → r.token ∈ issuedBy g.log
  unspent : ∀ r, l.refreshing = some r → r.token ∉ spentBy g.log
  current : ∀ r, l.refreshing = some r → Current g.log r.owner r.token
  taken : ∀ r, l.taken = some r → ∀ r' ∈ g.rows, r'.token ≠ r.token
  cleared : ∀ o, l.cleared = some o → ∀ r ∈ g.rows, r.owner ≠ o
  presented : l.Presented g

structure Between (l m : Call) : Prop where
  apart : ∀ r r', l.refreshing = some r → m.refreshing = some r' → r.token ≠ r'.token
  left : ∀ o r, l.cleared = some o → m.refreshing = some r → r.owner ≠ o
  right : ∀ o r, m.cleared = some o → l.refreshing = some r → r.owner ≠ o

instance : Std.Symm Between :=
  ⟨fun _ _ h => ⟨fun r r' hr hr' => (h.apart r' r hr' hr).symm, h.right, h.left⟩⟩

theorem Between.of_idle {l m : Call} (hr : l.refreshing = none) (hc : l.cleared = none) :
    Between l m where
  apart _ _ h := nomatch hr.symm.trans h
  left _ _ h := nomatch hc.symm.trans h
  right _ _ _ h := nomatch hr.symm.trans h

theorem Between.of_refreshing {l l' m : Call} (h : Between l m)
    (hr : ∀ r, l'.refreshing = some r → l.refreshing = some r) (hc : l'.cleared = none) :
    Between l' m where
  apart r r' hl hm := h.apart r r' (hr r hl) hm
  left _ _ h := nomatch hc.symm.trans h
  right o r hm hl := h.right o r hm (hr r hl)

/-- What holds of the table, of the answers given so far and of the calls under way. -/
abbrev HubInv : Hub → Prop := Interleaving.Inv StoreInv Call.Inv Between

variable {g g' : Store} {l m : Call}

theorem StoreInv.shrink (h : StoreInv g) (hlog : g'.log = g.log) (hrows : g'.rows ⊆ g.rows) :
    StoreInv g' where
  issuedOnce := hlog ▸ h.issuedOnce
  spentOnce := hlog ▸ h.spentOnce
  spentIssued := hlog ▸ h.spentIssued
  rowsIssued r hr := hlog ▸ h.rowsIssued r (hrows hr)
  rowsUnspent r hr := hlog ▸ h.rowsUnspent r (hrows hr)
  rowsOwner r hr r' hr' := h.rowsOwner r (hrows hr) r' (hrows hr')
  rowsCurrent r hr := hlog ▸ h.rowsCurrent r (hrows hr)
  spentRenewed := hlog ▸ h.spentRenewed

def OnlyNewRows (g g' : Store) : Prop :=
  ∀ r ∈ g'.rows, r ∈ g.rows ∨ r.token ∉ issuedBy g.log

theorem Call.Presented.transfer (h : l.Presented g) (hissued : issuedBy g.log ⊆ issuedBy g'.log)
    (hrows : OnlyNewRows g g') : l.Presented g' := by
  cases l with
  | presenting token valid caller =>
    cases valid with
    | none => trivial
    | some o =>
      refine ⟨hissued h.1, fun r hr htoken => ?_⟩
      obtain hold | hnew := hrows r hr
      · exact h.2 r hold htoken
      · exact absurd (htoken ▸ h.1) hnew
  | found owner valid caller | unknown token valid caller => cases valid <;> exact h
  | _ => trivial

theorem Call.refreshing_of_taken {r : RefreshToken} (h : l.taken = some r) :
    l.refreshing = some r := by
  cases l with
  | deleted row | vetted row => exact h
  | _ => exact nomatch h

/-- What a call has is left to it by any change of the store that adds rows for
new tokens only, spends no token the call works on, and adds no row of a user the
call has cleared. -/
theorem Call.Inv.transfer (h : l.Inv g) (hissued : issuedBy g.log ⊆ issuedBy g'.log)
    (hrows : OnlyNewRows g g')
    (hspent : ∀ r, l.refreshing = some r → r.token ∉ spentBy g.log → r.token ∉ spentBy g'.log)
    (hcurrent : ∀ r, l.refreshing = some r → Current g.log r.owner r.token →
      Current g'.log r.owner r.token)
    (hcleared : ∀ o, l.cleared = some o → ∀ r ∈ g'.rows, r ∈ g.rows ∨ r.owner ≠ o) : l.Inv g' where
  issued r hr := hissued (h.issued r hr)
  unspent r hr := hspent r hr (h.unspent r hr)
  current r hr := hcurrent r hr (h.current r hr)
  taken r hr r' hr' heq := by
    obtain hold | hnew := hrows r' hr'
    · exact h.taken r hr r' hold heq
    · exact hnew (heq ▸ h.issued r (Call.refreshing_of_taken hr))
  cleared o ho r hr := by
    obtain hold | hne := hcleared o ho r hr
    · exact h.cleared o ho r hold
    · exact hne
  presented := h.presented.transfer hissued hrows

theorem Call.Inv.shrink (h : l.Inv g) (hlog : g'.log = g.log) (hrows : g'.rows ⊆ g.rows) :
    l.Inv g' := by
  apply h.transfer
  · rw [hlog]
    exact Subset.refl _
  · exact fun r hr => .inl (hrows hr)
  · exact fun r _ hr => hlog ▸ hr
  · exact fun r _ hr => hlog ▸ hr
  · exact fun o _ r hr => .inl (hrows hr)

theorem deleteRefreshToken_subset (rows : List RefreshToken) (token : String) (ok : Bool) :
    deleteRefreshToken rows token ok ⊆ rows := by
  rw [deleteRefreshToken]
  split
  · exact filter_subset_self _
  · exact Subset.refl _

theorem deleteRefreshTokensByUser_subset (rows : List RefreshToken) (owner : Owner) (ok : Bool) :
    deleteRefreshTokensByUser rows owner ok ⊆ rows := by
  rw [deleteRefreshTokensByUser]
  split
  · exact filter_subset_self _
  · exact Subset.refl _

variable {rows : List RefreshToken}

def Issues (g : Store) (e : Entry) (o : Owner) (t : String) : Prop :=
  e = .opened o t ∨ ∃ old, e = .exchanged o old t ∧ old ∈ issuedBy g.log ∧
    old ∉ spentBy g.log ∧ (∀ r ∈ g.rows, r.token ≠ old) ∧ Current g.log o old

theorem Issues.issued_eq (h : Issues g e o t) : e.issued = some t := by
  obtain rfl | ⟨old, rfl, -⟩ := h <;> rfl

theorem Issues.ne_loggedOut (h : Issues g e o t) (o' : Owner) : e ≠ .loggedOut o' := by
  obtain rfl | ⟨old, rfl, -⟩ := h <;> exact nofun

theorem Issues.current (h : Issues g e o t) : Current (g.log ++ [e]) o t := by
  obtain rfl | ⟨old, rfl, -, -, -, hcurrent⟩ := h
  · exact current_opened
  · exact hcurrent.exchanged

theorem issuedBy_snoc (he : e.issued = some t) : issuedBy (log ++ [e]) = issuedBy log ++ [t] := by
  rw [issuedBy_append, issuedBy, issuedBy, filterMap_cons_some he, filterMap_nil]

theorem nodup_snoc {l : List String} (h : l.Nodup) (ht : t ∉ l) : (l ++ [t]).Nodup := by
  simp only [nodup_append, nodup_cons, not_mem_nil, nodup_nil,
    mem_singleton, not_false_eq_true, and_self, true_and]
  refine ⟨h, ?_⟩
  rintro a ha b rfl rfl
  exact ht ha

theorem Issues.of_exchanged {o' : Owner} {u v : String} (h : Issues g (.exchanged o' u v) o t) :
    o' = o ∧ v = t ∧ u ∈ issuedBy g.log ∧ u ∉ spentBy g.log ∧ (∀ r ∈ g.rows, r.token ≠ u) ∧
      Current g.log o u := by
  obtain heq | ⟨old, heq, hold⟩ := h
  · exact nomatch heq
  · injection heq with howner hspent hnew
    exact ⟨howner, hnew, hspent ▸ hold⟩

theorem Issues.mem_spentBy (h : Issues g e o t) {u : String} (hu : u ∈ spentBy (g.log ++ [e])) :
    u ∈ spentBy g.log ∨ e = .exchanged o u t := by
  rw [spentBy_append, mem_append] at hu
  obtain hu | hu := hu
  · exact .inl hu
  · obtain rfl | ⟨old, rfl, -⟩ := h
    · exact absurd hu (by simp [spentBy, Entry.spent])
    · obtain rfl : u = old := by simpa [spentBy, Entry.spent] using hu
      exact .inr rfl

theorem StoreInv.issue (h : StoreInv g) (he : Issues g e o t) (hnew : t ∉ issuedBy g.log)
    (hrows : ∀ r ∈ rows, r ∈ g.rows ∨ r.token = t ∧ r.owner = o) :
    StoreInv ⟨rows, g.log ++ [e]⟩ where
  issuedOnce := by
    rw [issuedBy_snoc he.issued_eq]
    exact nodup_snoc h.issuedOnce hnew
  spentOnce := by
    rw [spentBy_append]
    cases e with
    | exchanged o' u v => exact nodup_snoc h.spentOnce he.of_exchanged.2.2.2.1
    | opened | loggedOut => exact (append_nil _).symm ▸ h.spentOnce
  spentIssued u hu := by
    rw [issuedBy_snoc he.issued_eq, mem_append]
    obtain hu | rfl := he.mem_spentBy hu
    · exact .inl (h.spentIssued hu)
    · exact .inl he.of_exchanged.2.2.1
  rowsIssued r hr := by
    rw [issuedBy_snoc he.issued_eq, mem_append, mem_singleton]
    obtain hold | ⟨htoken, -⟩ := hrows r hr
    · exact .inl (h.rowsIssued r hold)
    · exact .inr htoken
  rowsUnspent r hr hspent := by
    obtain hold | ⟨rfl, -⟩ := hrows r hr
    · obtain hspent | rfl := he.mem_spentBy hspent
      · exact h.rowsUnspent r hold hspent
      · exact he.of_exchanged.2.2.2.2.1 r hold rfl
    · obtain hspent | rfl := he.mem_spentBy hspent
      · exact hnew (h.spentIssued hspent)
      · exact hnew he.of_exchanged.2.2.1
  rowsOwner r hr r' hr' heq := by
    obtain hold | ⟨htoken, howner⟩ := hrows r hr <;>
      obtain hold' | ⟨htoken', howner'⟩ := hrows r' hr'
    · exact h.rowsOwner r hold r' hold' heq
    · exact absurd (heq.trans htoken' ▸ h.rowsIssued r hold) hnew
    · exact absurd (heq.symm.trans htoken ▸ h.rowsIssued r' hold') hnew
    · exact howner.trans howner'.symm
  rowsCurrent r hr := by
    obtain hold | ⟨rfl, rfl⟩ := hrows r hr
    · exact (h.rowsCurrent r hold).snoc (he.ne_loggedOut _)
    · exact he.current
  spentRenewed before after o' hsplit u v hmem := by
    obtain ⟨-, -, heq⟩ | ⟨after', rfl, hlog⟩ := split_snoc hsplit
    · exact absurd heq.symm (he.ne_loggedOut o')
    · refine Renewed.mono ?_ (subset_append_left after' [e])
      obtain hmem | hmem := mem_append.1 hmem
      · exact h.spentRenewed before after' o' hlog u v hmem
      · obtain rfl := mem_singleton.1 hmem
        obtain ⟨rfl, -, -, -, -, hcurrent⟩ := he.of_exchanged
        exact hcurrent before after' hlog

theorem Call.Inv.issue (h : m.Inv g) (he : Issues g e o t) (hnew : t ∉ issuedBy g.log)
    (hrows : ∀ r ∈ rows, r ∈ g.rows ∨ r.token = t ∧ r.owner = o)
    (hspent : ∀ r, m.refreshing = some r → e ≠ .exchanged o r.token t)
    (hcleared : m.cleared ≠ some o) : m.Inv ⟨rows, g.log ++ [e]⟩ := by
  apply h.transfer
  · rw [issuedBy_append]
    exact subset_append_left _ _
  · intro r hr
    obtain hold | ⟨rfl, -⟩ := hrows r hr
    · exact .inl hold
    · exact .inr hnew
  · intro r hr hunspent hmem
    exact (he.mem_spentBy hmem).elim hunspent (hspent r hr)
  · exact fun r _ hcurrent => hcurrent.snoc (he.ne_loggedOut _)
  · intro o' ho' r hr
    obtain hold | ⟨-, rfl⟩ := hrows r hr
    · exact .inl hold
    · exact .inr fun heq => hcleared (heq ▸ ho')

theorem mem_storeRefreshToken {row r : RefreshToken} {ok : Bool}
    (h : r ∈ storeRefreshToken rows row ok) :
    r ∈ rows ∨ r.token = row.token ∧ r.owner = row.owner := by
  cases ok with
  | false => exact .inl h
  | true =>
    obtain rfl | h := mem_cons.1 h
    · exact .inr ⟨rfl, rfl⟩
    · exact .inl h

theorem issuedBy_loggedOut (log : List Entry) (o : Owner) :
    issuedBy (log ++ [.loggedOut o]) = issuedBy log := by
  rw [issuedBy_append]
  exact append_nil _

theorem spentBy_loggedOut (log : List Entry) (o : Owner) :
    spentBy (log ++ [.loggedOut o]) = spentBy log := by
  rw [spentBy_append]
  exact append_nil _

theorem StoreInv.logOut (h : StoreInv g) (hcleared : ∀ r ∈ g.rows, r.owner ≠ o) :
    StoreInv { g with log := g.log ++ [.loggedOut o] } where
  issuedOnce := (issuedBy_loggedOut g.log o).symm ▸ h.issuedOnce
  spentOnce := (spentBy_loggedOut g.log o).symm ▸ h.spentOnce
  spentIssued := (spentBy_loggedOut g.log o).symm ▸
    (issuedBy_loggedOut g.log o).symm ▸ h.spentIssued
  rowsIssued r hr := (issuedBy_loggedOut g.log o).symm ▸ h.rowsIssued r hr
  rowsUnspent r hr := (spentBy_loggedOut g.log o).symm ▸ h.rowsUnspent r hr
  rowsOwner := h.rowsOwner
  rowsCurrent r hr := by
    apply (h.rowsCurrent r hr).snoc
    intro heq
    injection heq with heq
    exact hcleared r hr heq.symm
  spentRenewed before after o' hsplit u v hmem := by
    obtain ⟨rfl, -, -⟩ | ⟨after', rfl, hlog⟩ := split_snoc hsplit
    · exact absurd hmem not_mem_nil
    · obtain hmem | hmem := mem_append.1 hmem
      · exact (h.spentRenewed before after' o' hlog u v hmem).mono (subset_append_left _ _)
      · exact nomatch mem_singleton.1 hmem

theorem Call.Inv.logOut (h : m.Inv g) (ho : ∀ r, m.refreshing = some r → r.owner ≠ o) :
    m.Inv { g with log := g.log ++ [.loggedOut o] } := by
  apply h.transfer
  · rw [issuedBy_loggedOut]
    exact Subset.refl _
  · exact fun r hr => .inl hr
  · exact fun r _ hr => (spentBy_loggedOut g.log o).symm ▸ hr
  · intro r hr hcurrent
    apply hcurrent.snoc
    intro heq
    injection heq with heq
    exact ho r hr heq.symm
  · exact fun o' _ r hr => .inl hr

end MeshsatHub.Session
