import MeshsatHub.Session.Table

/-!
# Single use of refresh tokens

Two refreshes may both read a token before one deletes it, a failed delete leaves the token, and a
refresh that is between its read and its store when a logout runs puts a token back.
`tokens_spent_once_and_ended` is for the runs in the order of `orderly`.
-/

namespace MeshsatHub.Session
open Interleaving Runs List
variable {log before after : List Entry} {e : Entry} {o : Owner} {t old new : String}
variable {s : Hub} {g : Store}

theorem Call.Inv.of_idle {l : Call} (hr : l.refreshing = none) (hc : l.cleared = none)
    (hp : l.Presented g) : l.Inv g where
  issued _ h := nomatch hr.symm.trans h
  unspent _ h := nomatch hr.symm.trans h
  current _ h := nomatch hr.symm.trans h
  taken _ h := nomatch hr.symm.trans (Call.refreshing_of_taken h)
  cleared _ h := nomatch hc.symm.trans h
  presented := hp

variable {row : RefreshToken}

theorem mem_of_getRefreshToken {rows : List RefreshToken} (h : getRefreshToken rows t = some row) :
    row ∈ rows ∧ row.token = t :=
  ⟨mem_of_find?_eq_some h, by simpa using find?_some h⟩

section
variable (h : HubInv s)
include h

theorem begun_refresh (hrow : row ∈ s.shared.rows) (hok : ∀ m ∈ s.calls, m.holds row.token = false)
    : HubInv ⟨s.shared, s.calls ++ [.read row]⟩ := by
  refine h.begun h.shared ?_ fun m hm hinv => ⟨hinv, ?_⟩
  · constructor
    · rintro r ⟨⟩
      exact h.shared.rowsIssued row hrow
    · rintro r ⟨⟩
      exact h.shared.rowsUnspent row hrow
    · rintro r ⟨⟩
      exact h.shared.rowsCurrent row hrow
    · exact fun r hr => nomatch hr
    · exact fun o ho => nomatch ho
    · trivial
  · constructor
    · rintro r _ hr ⟨⟩ heq
      have hholds := hok m hm
      -- a refresh past its delete would have left no row of the token
      cases m with
      | read row' =>
        cases hr
        exact absurd heq (by simpa [Call.holds] using hholds)
      | deleted row' | vetted row' => exact hinv.taken r hr row hrow heq.symm
      | _ => exact nomatch hr
    · rintro o r ho ⟨⟩
      exact hinv.cleared o ho row hrow
    · exact fun o r ho => nomatch ho

omit h in
theorem presented_get (h : StoreInv g) (token : String) (caller : Option Owner) :
    (Call.presenting token ((getRefreshToken g.rows token).map (·.owner)) caller).Presented g := by
  cases hget : getRefreshToken g.rows token with
  | none => trivial
  | some row =>
    obtain ⟨hrow, rfl⟩ := mem_of_getRefreshToken hget
    exact ⟨h.rowsIssued row hrow, fun r hr htoken => h.rowsOwner r hr row hrow htoken⟩

theorem arrive_inv {b : Arrival} (hok : orderly s (.start b)) {l : Call}
    (harrive : arrive s.shared b = some (g, l)) : HubInv ⟨g, s.calls ++ [l]⟩ := by
  have hidle {l : Call} (hr : l.refreshing = none) (hc : l.cleared = none)
      (hp : l.Presented s.shared) : HubInv ⟨s.shared, s.calls ++ [l]⟩ :=
    h.begun h.shared (Call.Inv.of_idle hr hc hp)
      fun m _ hinv => ⟨hinv, Std.Symm.symm _ _ (Between.of_idle hr hc)⟩
  revert harrive
  fun_cases arrive s.shared b with rintro ⟨⟩
  | case2 owner token expiresAt hnew =>
    simp only [orderly, all_eq_true, bne_iff_ne, ne_eq] at hok
    have hissues : Issues s.shared (.opened owner token) owner token := .inl rfl
    refine h.begun (h.shared.issue hissues hnew fun r => mem_storeRefreshToken)
      (Call.Inv.of_idle rfl rfl trivial)
      fun m hm hinv => ⟨?_, Std.Symm.symm _ _ (Between.of_idle rfl rfl)⟩
    exact hinv.issue hissues hnew (fun r => mem_storeRefreshToken) (fun _ _ => nofun) (hok m hm)
  | case3 | case5 => exact hidle rfl rfl trivial
  | case4 token row hget =>
    obtain ⟨hrow, rfl⟩ := mem_of_getRefreshToken hget
    apply begun_refresh h hrow
    simpa [orderly] using hok
  | case6 token caller => exact hidle rfl rfl (presented_get h.shared token caller)

variable {l l' : Call} {i : Nat}

theorem acted_shrink (hi : s.calls[i]? = some l) (hlog : g.log = s.shared.log)
    (hrows : g.rows ⊆ s.shared.rows) (hl' : l'.Inv g)
    (hbetween : ∀ m ∈ s.calls, Between l m → Between l' m) : HubInv ⟨g, s.calls.set i l'⟩ :=
  h.acted hi (h.shared.shrink hlog hrows) hl'
    fun m hm hinv hlm => ⟨hinv.shrink hlog hrows, hbetween m hm hlm⟩

omit h in
theorem Call.Inv.of_refreshing (h : l.Inv g) (hr : l'.refreshing = l.refreshing)
    (ht : ∀ r, l'.taken = some r → ∀ r' ∈ g.rows, r'.token ≠ r.token) (hc : l'.cleared = none)
    (hp : l'.Presented g) : l'.Inv g where
  issued r h' := h.issued r (hr ▸ h')
  unspent r h' := h.unspent r (hr ▸ h')
  current r h' := h.current r (hr ▸ h')
  taken := ht
  cleared _ h' := nomatch hc.symm.trans h'
  presented := hp

variable {rows : List RefreshToken} {caller valid : Option Owner} {r : RefreshToken}

omit h in
theorem deleteRefreshToken_true (hr : r ∈ deleteRefreshToken rows t true) : r.token ≠ t := by
  simpa using (mem_filter.1 hr).2

omit h in
theorem deleteRefreshTokensByUser_true
    (hr : r ∈ deleteRefreshTokensByUser rows o true) : r.owner ≠ o := by
  simpa using (mem_filter.1 hr).2

theorem acted_delete (hi : s.calls[i]? = some (.read row)) {now : Int} {ok : Bool}
    (hok : ok ∨ row.expiresAt < now) :
    HubInv ⟨{ s.shared with rows := deleteRefreshToken s.shared.rows row.token ok },
      s.calls.set i (if row.expiresAt < now then .done else .deleted row)⟩ := by
  have hsub := deleteRefreshToken_subset s.shared.rows row.token ok
  have hinv := h.call hi
  split
  case isTrue =>
    exact acted_shrink h hi rfl hsub (Call.Inv.of_idle rfl rfl trivial)
      fun _ _ _ => Between.of_idle rfl rfl
  case isFalse hlive =>
    obtain rfl : ok := hok.resolve_right hlive
    have hshrunk : Call.Inv { s.shared with rows := deleteRefreshToken _ row.token true }
        (.read row) := hinv.shrink rfl hsub
    refine acted_shrink h hi rfl hsub (hshrunk.of_refreshing rfl ?_ rfl trivial)
      fun _ _ hb => hb.of_refreshing (fun _ hr => hr) rfl
    rintro r ⟨⟩ r' hr'
    exact deleteRefreshToken_true hr'

theorem acted_store (hi : s.calls[i]? = some (.vetted row))
    (hnew : t ∉ issuedBy s.shared.log) (expiresAt : Int) (ok : Bool) :
    HubInv ⟨⟨storeRefreshToken s.shared.rows ⟨t, row.owner, expiresAt⟩ ok,
      s.shared.log ++ [.exchanged row.owner row.token t]⟩, s.calls.set i .done⟩ := by
  have hinv := h.call hi
  have hissues : Issues s.shared (.exchanged row.owner row.token t) row.owner t :=
    .inr ⟨row.token, rfl, hinv.issued row rfl, hinv.unspent row rfl, hinv.taken row rfl,
      hinv.current row rfl⟩
  refine h.acted hi
    (h.shared.issue hissues hnew fun r => mem_storeRefreshToken) (Call.Inv.of_idle rfl rfl trivial)
    fun m _ hm hb => ⟨?_, Between.of_idle rfl rfl⟩
  apply hm.issue hissues hnew fun r => mem_storeRefreshToken
  · intro r hr heq
    injection heq with _ htoken _
    exact hb.apart row r rfl hr htoken
  · exact fun hc => hb.right row.owner row hc rfl rfl

omit h in
theorem found_inv (hl : (Call.presenting t valid caller).Inv g)
    (hget : getRefreshToken g.rows t = some row) : (Call.found row.owner valid caller).Inv g := by
  apply Call.Inv.of_idle rfl rfl
  obtain ⟨hrow, htoken⟩ := mem_of_getRefreshToken hget
  cases valid with
  | none => trivial
  | some o => exact hl.presented.2 row hrow htoken

theorem acted_revoke {owner : Owner}
    (hi : s.calls[i]? = some (.found owner valid caller)) {ok : Bool}
    (hok : valid = none ∨ ok ∧ ∀ m ∈ s.calls, ∀ r, m.refreshing = some r → r.owner ≠ owner) :
    HubInv ⟨{ s.shared with rows := deleteRefreshTokensByUser s.shared.rows owner ok },
      s.calls.set i (.revoked valid caller)⟩ := by
  have hsub := deleteRefreshTokensByUser_subset s.shared.rows owner ok
  have hinv := h.call hi
  cases valid with
  | none =>
    exact acted_shrink h hi rfl hsub (Call.Inv.of_idle rfl rfl trivial)
      fun _ _ _ => Between.of_idle rfl rfl
  | some o =>
    obtain ⟨rfl, hquiet⟩ := hok.resolve_left nofun
    obtain rfl : owner = o := hinv.presented
    refine acted_shrink h hi rfl hsub ?_ fun m hm _ => ?_
    · refine ⟨nofun, nofun, nofun, nofun, ?_, trivial⟩
      rintro o ⟨⟩ r hr
      exact deleteRefreshTokensByUser_true hr
    · refine ⟨nofun, ?_, nofun⟩
      rintro o r ⟨⟩ hr
      exact hquiet m hm r hr

/-- A logout deletes the tokens of its caller, if it has one, and stays where it
is with the user it has cleared. -/
theorem acted_revokeCaller (hi : s.calls[i]? = some (.revoked valid caller))
    (hlog : g.log = s.shared.log) (hsub : g.rows ⊆ s.shared.rows) :
    HubInv ⟨g, s.calls.set i (.ready valid)⟩ := by
  have hinv := (h.call hi).shrink hlog hsub
  exact acted_shrink h hi hlog hsub ⟨nofun, nofun, nofun, nofun, hinv.cleared, trivial⟩
    fun m _ hb => ⟨nofun, hb.left, nofun⟩

theorem acted_answer (hi : s.calls[i]? = some (.ready (some o))) :
    HubInv ⟨{ s.shared with log := s.shared.log ++ [.loggedOut o] }, s.calls.set i .done⟩ := by
  have hinv := h.call hi
  exact h.acted hi (h.shared.logOut (hinv.cleared o rfl)) (Call.Inv.of_idle rfl rfl trivial)
    fun m _ hm hb => ⟨hm.logOut fun r hr => hb.left o r rfl hr, Between.of_idle rfl rfl⟩

theorem perform_inv (hi : s.calls[i]? = some l) {op : Op} (hok : orderly s (.act i op))
    (hperform : perform s.shared l op = some (g, l')) : HubInv ⟨g, s.calls.set i l'⟩ := by
  have hinv := h.call hi
  have hidle {l' : Call} (hr : l'.refreshing = none) (hc : l'.cleared = none)
      (hp : l'.Presented s.shared) : HubInv ⟨s.shared, s.calls.set i l'⟩ :=
    acted_shrink h hi rfl (Subset.refl _) (Call.Inv.of_idle hr hc hp)
      fun _ _ _ => Between.of_idle hr hc
  simp only [orderly, hi] at hok
  unfold perform at hperform
  split at hperform
  case h_1 row now ok =>
    cases hperform
    exact acted_delete h hi (by simpa using hok)
  case h_2 row enabled =>
    cases hperform
    cases enabled with
    | false => exact hidle rfl rfl trivial
    | true =>
      exact acted_shrink h hi rfl (Subset.refl _) (hinv.of_refreshing rfl hinv.taken rfl trivial)
        fun _ _ hb => hb.of_refreshing (fun _ hr => hr) rfl
  case h_3 row token expiresAt ok =>
    obtain ⟨hnew, heq⟩ := Option.ite_none_left_eq_some.1 hperform
    cases heq
    exact acted_store h hi hnew expiresAt ok
  case h_4 token valid caller ok =>
    split at hperform
    case h_1 row hget =>
      cases hperform
      have hread := (Option.ite_none_right_eq_some.1 hget).2
      exact hidle rfl rfl (found_inv hinv hread).presented
    case h_2 hget =>
      cases hperform
      apply hidle rfl rfl
      cases valid with
      | none => trivial
      | some o =>
        -- in order, a token that was valid on arrival is still found
        obtain ⟨rfl, hfound⟩ : ok ∧ (getRefreshToken s.shared.rows token).isSome := by
          simpa using hok
        rw [if_pos rfl] at hget
        exact absurd hfound (by simp [hget])
  case h_5 owner valid caller ok =>
    cases hperform
    apply acted_revoke h hi
    simpa [Option.all_eq_true] using hok
  case h_6 token valid caller ok =>
    cases hperform
    cases valid with
    | none =>
      exact acted_shrink h hi rfl (deleteRefreshToken_subset _ _ _)
        (Call.Inv.of_idle rfl rfl trivial) fun _ _ _ => Between.of_idle rfl rfl
    | some o => exact hinv.presented.elim
  case h_7 valid _ =>
    cases hperform
    exact acted_revokeCaller h hi rfl (Subset.refl _)
  case h_8 valid caller ok =>
    cases hperform
    exact acted_revokeCaller h hi rfl (deleteRefreshTokensByUser_subset _ _ _)
  case h_9 =>
    cases hperform
    exact hidle rfl rfl trivial
  case h_10 owner =>
    cases hperform
    exact acted_answer h hi
  case h_11 => exact nomatch hperform

end

theorem step_inv {s' : Hub} {e : Event Arrival Op} (h : HubInv s) (hok : orderly s e)
    (hstep : step s e = some s') : HubInv s' := by
  obtain ⟨b, g, l, harrive⟩ | ⟨i, op, l, g, l', hi, hop⟩ := step_cases hstep
  · exact arrive_inv h hok harrive
  · exact perform_inv h hi hok hop

theorem initial_inv : HubInv initial :=
  Interleaving.Inv.nil
    { issuedOnce := nodup_nil
      spentOnce := nodup_nil
      spentIssued := Subset.refl _
      rowsIssued := nofun
      rowsUnspent := nofun
      rowsOwner := nofun
      rowsCurrent := nofun
      spentRenewed := fun before _ _ hsplit => absurd hsplit (by cases before <;> simp) }

/-- In every run that keeps the order, whatever else is interleaved, each refresh
token is exchanged at most once, and after the answer to a logout that presented a
valid token no token of the user from before the answer is accepted. -/
theorem tokens_spent_once_and_ended {s : Hub}
    (hrun : Reaches step (fun s e => orderly s e = true) initial s) :
    SpentOnce s.shared.log ∧ EndedByLogout s.shared.log := by
  have hinv : HubInv s := hrun.invariant initial_inv fun _ _ _ => step_inv
  refine ⟨hinv.shared.spentOnce, ?_⟩
  intro before after owner hlog old new hmem
  have hrenewed := hinv.shared.spentRenewed before after owner hlog old new hmem
  exact hrenewed.not_stale (hlog ▸ hinv.shared.issuedOnce)

def visitor : Owner := ⟨"t_a", "u_1"⟩

/-- Two sessions of one user; one is refreshed, the other logs the user out, and
a refresh with the older token is refused; the user logs in again and refreshes. -/
def twoSessions : List (Event Arrival Op) :=
  [.start (.login visitor "a1" 1000), .start (.login visitor "b1" 1000),
    .start (.refresh "a1"), .act 2 (.delete 10 true), .act 2 (.lookUp true),
    .act 2 (.store "a2" 1010 true),
    .start (.logout (some "b1") none), .act 3 (.find true), .act 3 (.revoke true),
    .act 3 (.revokeCaller true), .act 3 .answer,
    .start (.refresh "a2"),
    .start (.login visitor "c1" 2000), .start (.refresh "c1"), .act 6 (.delete 20 true),
    .act 6 (.lookUp true), .act 6 (.store "c2" 2010 true)]

def twoSessionsLog : List Entry :=
  [.opened visitor "a1", .opened visitor "b1", .exchanged visitor "a1" "a2", .loggedOut visitor,
    .opened visitor "c1", .exchanged visitor "c1" "c2"]

theorem tokens_spent_once_and_ended_twoSessions :
    ∃ s : Hub, Reaches step (fun s e => orderly s e = true) initial s ∧
      s.shared.log = twoSessionsLog ∧ SpentOnce s.shared.log ∧ EndedByLogout s.shared.log := by
  exact exists_reaches_and_of_decide twoSessions (by decide +kernel)
    fun _ hrun => tokens_spent_once_and_ended hrun

/-- One token submitted twice at the same moment. -/
def doubleSubmit : List (Event Arrival Op) :=
  [.start (.login visitor "a1" 1000), .start (.refresh "a1"), .start (.refresh "a1"),
    .act 1 (.delete 10 true), .act 2 (.delete 10 true), .act 1 (.lookUp true),
    .act 2 (.lookUp true), .act 1 (.store "a2" 1010 true), .act 2 (.store "a3" 1010 true)]

/-- A refresh that is under way while its user logs out, and the token it issued. -/
def overtakenLogout : List (Event Arrival Op) :=
  [.start (.login visitor "a1" 1000), .start (.login visitor "b1" 1000),
    .start (.refresh "a1"), .act 2 (.delete 10 true), .act 2 (.lookUp true),
    .start (.logout (some "b1") none), .act 3 (.find true), .act 3 (.revoke true),
    .act 3 (.revokeCaller true), .act 3 .answer, .act 2 (.store "a2" 1010 true),
    .start (.refresh "a2"), .act 4 (.delete 20 true), .act 4 (.lookUp true),
    .act 4 (.store "a3" 1020 true)]

/-- Without the order, and with no operation failing, a token is exchanged twice,
and a token obtained from one issued before a logout is accepted after it. -/
theorem interleaved_refresh_accepted_again :
    (∃ s : Hub, Reaches step (fun _ _ => True) initial s ∧ ¬SpentOnce s.shared.log) ∧
      ∃ s : Hub, Reaches step (fun _ _ => True) initial s ∧ ¬EndedByLogout s.shared.log := by
  constructor
  · exact exists_reaches_of_decide doubleSubmit (by decide +kernel)
  · have hreplay : (replay step initial overtakenLogout).map (fun s => s.shared.log) =
        some [.opened visitor "a1", .opened visitor "b1", .loggedOut visitor,
          .exchanged visitor "a1" "a2", .exchanged visitor "a2" "a3"] := by decide +kernel
    obtain ⟨s, hrun, hview⟩ := exists_reaches_of_replay hreplay
    refine ⟨s, hrun, fun hended => ?_⟩
    rw [hview] at hended
    have hissued : Stale [.opened visitor "a1", .opened visitor "b1"]
        [.exchanged visitor "a1" "a2", .exchanged visitor "a2" "a3"] "a1" :=
      Stale.issued (by decide)
    exact hended [.opened visitor "a1", .opened visitor "b1"] _ visitor rfl "a2" "a3" (by simp)
      (Stale.exchanged hissued mem_cons_self)

end MeshsatHub.Session
