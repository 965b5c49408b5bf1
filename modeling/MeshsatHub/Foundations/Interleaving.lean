import MeshsatHub.Foundations.Runs

/-!
# Calls interleaved on a shared store

Any number of calls work on one store; an operation of a call is one step. An invariant has three
parts: what holds of the store, of each call together with the store, and between two calls. Where
the store is out of order for a while, the disorder is a debt that some call has in hand
(`Attended`).
-/

namespace MeshsatHub.Interleaving
open Runs List Option
variable {G L B O : Type*}

/-- How calls start and what their operations do. -/
structure Program (G L B O : Type*) where
  start : G → B → Option (G × L)
  perform : G → L → O → Option (G × L)

/-- How an operation on the store ends: done, failed without an effect, or reported
as failed although it took effect. -/
inductive Outcome where
  | done
  | lost
  | unseen
  deriving DecidableEq

/-- The caller is told that the operation went through. -/
def Outcome.ok : Outcome → Bool
  | .done => true
  | _ => false

/-- The operation took effect. -/
def Outcome.effective : Outcome → Bool
  | .lost => false
  | _ => true

/-- The store and the calls made so far. -/
structure System (G L : Type*) where
  shared : G
  calls : List L

/-- A call starts, or one of the calls makes its next operation. -/
inductive Event (B O : Type*) where
  | start (b : B)
  | act (i : Nat) (op : O)

def step (p : Program G L B O) (s : System G L) : Event B O → Option (System G L)
  | .start b => (p.start s.shared b).map fun gl => ⟨gl.1, s.calls ++ [gl.2]⟩
  | .act i op => s.calls[i]?.bind fun l =>
    (p.perform s.shared l op).map fun gl => ⟨gl.1, s.calls.set i gl.2⟩

/-- The steps as a relation, for reasoning by cases. -/
inductive Steps (p : Program G L B O) (s : System G L) : Event B O → System G L → Prop
  | start (b g l) (h : p.start s.shared b = some (g, l)) : Steps p s (.start b) ⟨g, s.calls ++ [l]⟩
  | act (i op l g l') (hi : s.calls[i]? = some l) (h : p.perform s.shared l op = some (g, l')) :
      Steps p s (.act i op) ⟨g, s.calls.set i l'⟩

theorem step_cases {p : Program G L B O} {s t : System G L} {e : Event B O}
    (h : step p s e = some t) : Steps p s e t := by
  cases e with
  | start b =>
    obtain ⟨gl, hgl, rfl⟩ := map_eq_some_iff.1 h
    exact .start b gl.1 gl.2 hgl
  | act i op =>
    obtain ⟨l, hl, hmap⟩ := bind_eq_some_iff.1 h
    obtain ⟨gl, hgl, rfl⟩ := map_eq_some_iff.1 hmap
    exact .act i op l gl.1 gl.2 hl hgl

variable {Shared : G → Prop} {Local : G → L → Prop} {Between : L → L → Prop}

/-- An invariant of the store, of each call, and between any two calls. -/
structure Inv (Shared : G → Prop) (Local : G → L → Prop) (Between : L → L → Prop)
    (s : System G L) : Prop where
  shared : Shared s.shared
  calls : ∀ l ∈ s.calls, Local s.shared l
  between : s.calls.Pairwise Between

variable {i : Nat} {l l' : L} {s : System G L} {g : G} {calls : List L}

instance symm_true : Std.Symm fun _ _ : L => True := ⟨fun _ _ h => h⟩

section
variable (h : Inv Shared Local Between s)
include h

theorem Inv.call (hi : s.calls[i]? = some l) : Local s.shared l :=
  h.calls l (mem_of_getElem? hi)

theorem Inv.between_calls [Std.Symm Between] {j : Nat} {m : L}
    (hi : s.calls[i]? = some l) (hj : s.calls[j]? = some m) (hne : i ≠ j) : Between l m := by
  obtain ⟨hlt, rfl⟩ := List.getElem?_eq_some_iff.1 hi
  obtain ⟨hlt', rfl⟩ := List.getElem?_eq_some_iff.1 hj
  obtain hij | hji := Nat.lt_or_gt_of_ne hne
  · exact pairwise_iff_getElem.1 h.between i j hlt hlt' hij
  · exact Std.Symm.symm _ _ (pairwise_iff_getElem.1 h.between j i hlt' hlt hji)

omit h in
/-- Nothing has been called yet. -/
theorem Inv.nil (h : Shared g) : Inv Shared Local Between ⟨g, []⟩ :=
  ⟨h, nofun, Pairwise.nil⟩

theorem Inv.begun (hshared : Shared g) (hlocal : Local g l)
    (hothers : ∀ m ∈ s.calls, Local s.shared m → Local g m ∧ Between m l) :
    Inv Shared Local Between ⟨g, s.calls ++ [l]⟩ := by
  refine ⟨hshared, ?_, ?_⟩
  · exact all_mem_snoc (fun m hm => (hothers m hm (h.calls m hm)).1) hlocal
  · rw [pairwise_append]
    refine ⟨h.between, pairwise_singleton _ _, ?_⟩
    intro m hm l' hl'
    exact mem_singleton.1 hl' ▸ (hothers m hm (h.calls m hm)).2

omit h in
/-- The calls before and after the acting one, which takes another state. -/
theorem exists_split (hi : calls[i]? = some l) (l' : L) :
    ∃ front back, calls = front ++ l :: back ∧ calls.set i l' = front ++ l' :: back ∧
      calls.eraseIdx i = front ++ back := by
  obtain ⟨hlt, rfl⟩ := List.getElem?_eq_some_iff.1 hi
  refine ⟨calls.take i, calls.drop (i + 1), ?_, set_eq_take_append_cons_drop ▸ if_pos hlt,
    eraseIdx_eq_take_drop_succ calls i⟩
  rw [getElem_cons_drop, take_append_drop]

omit h in
/-- How many calls satisfy `p` once one of them has taken another state. -/
theorem countP_acted (hi : calls[i]? = some l) (l' : L) (p : L → Bool) :
    (calls.set i l').countP p + (p l).toNat = calls.countP p + (p l').toNat := by
  obtain ⟨front, back, hcalls, hset, -⟩ := exists_split hi l'
  rw [hset, hcalls]
  simp only [countP_append, countP_cons]
  cases p l <;> cases p l' <;> simp <;> omega

/-- A call makes an operation. The others keep what they have if the acting call,
with which they were in order before, leaves it to them. -/
theorem Inv.acted_besides [Std.Symm Between]
    (hi : s.calls[i]? = some l) (hshared : Shared g) (hlocal : Local g l')
    (hothers : ∀ m ∈ s.calls.eraseIdx i, Local s.shared m → Between l m →
      Local g m ∧ Between l' m) : Inv Shared Local Between ⟨g, s.calls.set i l'⟩ := by
  obtain ⟨front, back, hcalls, hset, herase⟩ := exists_split hi l'
  have hbetween := h.between
  rw [hcalls, pairwise_append, pairwise_cons] at hbetween
  obtain ⟨hfront, ⟨hback, hbacks⟩, hacross⟩ := hbetween
  have hother (m : L) (hm : m ∈ front ∨ m ∈ back) : Local g m ∧ Between l' m := by
    have hmem : m ∈ s.calls := by
      rw [hcalls]
      obtain hm | hm := hm <;> simp [hm]
    apply hothers m (herase ▸ mem_append.2 hm) (h.calls m hmem)
    obtain hm | hm := hm
    · exact Std.Symm.symm m l (hacross m hm l (by simp))
    · exact hback m hm
  refine ⟨hshared, ?_, ?_⟩
  · simp only [hset, mem_append, mem_cons]
    rintro m (hm | rfl | hm)
    · exact (hother m (.inl hm)).1
    · exact hlocal
    · exact (hother m (.inr hm)).1
  · simp only [hset, pairwise_append, pairwise_cons, mem_cons]
    refine ⟨hfront, ⟨fun m hm => (hother m (.inr hm)).2, hbacks⟩, ?_⟩
    rintro m hm m' (rfl | hm')
    · exact Std.Symm.symm _ _ (hother m (.inl hm)).2
    · exact hacross m hm m' (by simp [hm'])

/-- The same where every call is looked at. -/
theorem Inv.acted [Std.Symm Between]
    (hi : s.calls[i]? = some l) (hshared : Shared g) (hlocal : Local g l')
    (hothers : ∀ m ∈ s.calls, Local s.shared m → Between l m → Local g m ∧ Between l' m) :
    Inv Shared Local Between ⟨g, s.calls.set i l'⟩ :=
  h.acted_besides hi hshared hlocal fun m hm => hothers m (mem_of_mem_eraseIdx hm)

end

variable {Q : Type*} {owed : G → Q → Prop} {tends : L → Q → Prop}

/-- Whatever the store owes is in the hands of some call. -/
def Attended (owed : G → Q → Prop) (tends : L → Q → Prop) (s : System G L) : Prop :=
  ∀ q, owed s.shared q → ∃ l ∈ s.calls, tends l q

/-- A call that starts owes what it adds. -/
theorem Attended.begun (h : Attended owed tends s)
    (howed : ∀ q, owed g q → tends l q ∨ owed s.shared q) :
    Attended owed tends ⟨g, s.calls ++ [l]⟩ := by
  intro q hq
  obtain hl | hbefore := howed q hq
  · exact ⟨l, by simp, hl⟩
  · obtain ⟨m, hm, htends⟩ := h q hbefore
    exact ⟨m, mem_append_left _ hm, htends⟩

/-- A call that acts takes over what it adds, and settles what it lets go of. -/
theorem Attended.acted (h : Attended owed tends s) (hi : s.calls[i]? = some l)
    (howed : ∀ q, owed g q → tends l' q ∨ owed s.shared q ∧ ¬tends l q) :
    Attended owed tends ⟨g, s.calls.set i l'⟩ := by
  obtain ⟨front, back, hcalls, hset, -⟩ := exists_split hi l'
  intro q hq
  simp only [hset]
  obtain hl' | ⟨hbefore, hnot⟩ := howed q hq
  · exact ⟨l', by simp, hl'⟩
  · obtain ⟨m, hm, htends⟩ := h q hbefore
    rw [hcalls, mem_append, mem_cons] at hm
    obtain hm | rfl | hm := hm
    · exact ⟨m, by simp [hm], htends⟩
    · exact absurd htends hnot
    · exact ⟨m, by simp [hm], htends⟩

end MeshsatHub.Interleaving
