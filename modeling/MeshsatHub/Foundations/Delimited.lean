import Mathlib

/-!
# Delimited streams

A stream of symbols is cut into segments by a delimiter, and the closing delimiter of one segment
may open the next. Reading in pieces gives what reading at once gives (`parse_append`).
-/

namespace MeshsatHub.Delimited
open List
variable {α β : Type*} [DecidableEq α] {d : α} {read : List α → Option β}
  {buf lead q t : List α}

/-- Read closed segments one after the other; `read` may pass over a segment. -/
def scan (d : α) (read : List α → Option β) : Nat → List α → List β × List α
  | 0, buf => ([], buf)
  | fuel + 1, buf =>
    match buf.dropWhile (· ≠ d) with
    | [] => ([], [])
    | first :: rest =>
      match rest.dropWhile (· ≠ d) with
      | [] => ([], first :: rest)
      | next :: later =>
        let more := scan d read fuel (next :: later)
        ((read (rest.takeWhile (· ≠ d))).toList ++ more.1, more.2)

/-- The closed segments of a buffer, and what is left of it. -/
def parse (d : α) (read : List α → Option β) (buf : List α) : List β × List α :=
  scan d read (buf.length + 1) buf

/-- What follows the last delimiter, with the delimiter. -/
def lastOpen (d : α) (buf : List α) : List α :=
  if d ∈ buf then d :: (buf.reverse.takeWhile (· ≠ d)).reverse else []

theorem dropWhile_lead (h : d ∉ lead) (rest : List α) :
    (lead ++ rest).dropWhile (· ≠ d) = rest.dropWhile (· ≠ d) := by
  rw [dropWhile_append_of_pos]
  intro a ha
  simpa using fun had : a = d => h (had ▸ ha)

theorem dropWhile_lead_cons (h : d ∉ lead) (rest : List α) :
    (lead ++ d :: rest).dropWhile (· ≠ d) = d :: rest := by
  rw [dropWhile_lead h]
  simp

theorem dropWhile_of_not_mem (h : d ∉ buf) : buf.dropWhile (· ≠ d) = [] := by
  simpa using dropWhile_lead h []

theorem takeWhile_lead_cons (h : d ∉ lead) (rest : List α) :
    (lead ++ d :: rest).takeWhile (· ≠ d) = lead := by
  rw [takeWhile_append_of_pos]
  · simp
  · intro a ha
    simpa using fun had : a = d => h (had ▸ ha)

/-- A buffer has no delimiter, or one open segment after its first delimiter,
or a closed one before the rest. -/
@[elab_as_elim]
theorem shape_induction {motive : List α → Prop} (buf : List α) (none : ∀ buf, d ∉ buf → motive buf)
    (opened : ∀ lead q, d ∉ lead → d ∉ q → motive (lead ++ d :: q))
    (closed : ∀ lead q t, d ∉ lead → d ∉ q → motive (d :: t) →
      motive (lead ++ d :: (q ++ d :: t))) : motive buf := by
  induction hn : buf.length using Nat.strong_induction_on generalizing buf with
  | _ n ih =>
    by_cases hbuf : d ∈ buf
    · obtain ⟨lead, rest, rfl, hlead⟩ := eq_append_cons_of_mem hbuf
      by_cases hrest : d ∈ rest
      · obtain ⟨q, t, rfl, hq⟩ := eq_append_cons_of_mem hrest
        refine closed lead q t hlead hq (ih (d :: t).length ?_ (d :: t) rfl)
        simp only [length_append, length_cons] at hn ⊢
        omega
      · exact opened lead rest hlead hrest
    · exact none buf hbuf

theorem scan_succ_of_not_mem (n : Nat) (h : d ∉ buf) : scan d read (n + 1) buf = ([], []) := by
  rw [scan, dropWhile_of_not_mem h]

theorem scan_succ_opened (n : Nat) (hlead : d ∉ lead) (hq : d ∉ q) :
    scan d read (n + 1) (lead ++ d :: q) = ([], d :: q) := by
  rw [scan, dropWhile_lead_cons hlead]
  simp only [dropWhile_of_not_mem hq]

theorem scan_succ_closed (n : Nat) (hlead : d ∉ lead) (hq : d ∉ q) :
    scan d read (n + 1) (lead ++ d :: (q ++ d :: t)) =
      ((read q).toList ++ (scan d read n (d :: t)).1, (scan d read n (d :: t)).2) := by
  rw [scan, dropWhile_lead_cons hlead]
  simp only [dropWhile_lead_cons hq, takeWhile_lead_cons hq]

/-- More fuel than symbols is enough. -/
theorem scan_eq_parse (buf : List α) (n : Nat) (h : buf.length < n) :
    scan d read n buf = parse d read buf := by
  induction buf using shape_induction (d := d) generalizing n with
    obtain ⟨n, rfl⟩ := Nat.exists_eq_add_one_of_ne_zero (Nat.ne_zero_of_lt h)
  | none buf hbuf => rw [parse, scan_succ_of_not_mem n hbuf, scan_succ_of_not_mem _ hbuf]
  | opened lead q hlead hq => rw [parse, scan_succ_opened n hlead hq, scan_succ_opened _ hlead hq]
  | closed lead q t hlead hq ih =>
    simp only [length_append, length_cons] at h
    rw [parse, scan_succ_closed n hlead hq, scan_succ_closed _ hlead hq,
      ih n (by simp only [length_cons]; omega),
      ih _ (by simp only [length_append, length_cons]; omega)]

theorem parse_of_not_mem (h : d ∉ buf) : parse d read buf = ([], []) :=
  scan_succ_of_not_mem _ h

theorem parse_opened (hlead : d ∉ lead) (hq : d ∉ q) :
    parse d read (lead ++ d :: q) = ([], d :: q) :=
  scan_succ_opened _ hlead hq

theorem parse_closed (hlead : d ∉ lead) (hq : d ∉ q) : parse d read (lead ++ d :: (q ++ d :: t)) =
      ((read q).toList ++ (parse d read (d :: t)).1, (parse d read (d :: t)).2) := by
  rw [parse, scan_succ_closed _ hlead hq, scan_eq_parse (d :: t)]
  simp only [length_append, length_cons]
  omega

/-- What stands before the first delimiter does not matter. -/
theorem parse_lead (h : d ∉ lead) (rest : List α) :
    parse d read (lead ++ rest) = parse d read rest := by
  induction rest using shape_induction (d := d) with
  | none rest hrest =>
    rw [parse_of_not_mem hrest, parse_of_not_mem]
    simp [h, hrest]
  | opened lead' q hlead' hq =>
    rw [← append_assoc, parse_opened hlead' hq, parse_opened _ hq]
    simp [h, hlead']
  | closed lead' q t hlead' hq _ =>
    rw [← append_assoc, parse_closed hlead' hq, parse_closed _ hq]
    simp [h, hlead']

/-- Reading two pieces one after the other gives what reading them at once gives. -/
theorem parse_append (first second : List α) : parse d read (first ++ second) =
      ((parse d read first).1 ++ (parse d read ((parse d read first).2 ++ second)).1,
        (parse d read ((parse d read first).2 ++ second)).2) := by
  induction first using shape_induction (d := d) with
  | none first hfirst =>
    rw [parse_of_not_mem hfirst, parse_lead hfirst]
    rfl
  | opened lead q hlead hq =>
    rw [parse_opened hlead hq, append_assoc, parse_lead hlead]
    rfl
  | closed lead q t hlead hq ih =>
    rw [parse_closed hlead hq]
    simp only [append_assoc, cons_append] at ih ⊢
    rw [parse_closed hlead hq, ih]

theorem lastOpen_of_not_mem (h : d ∉ buf) : lastOpen d buf = [] := if_neg h

theorem lastOpen_cons (h : d ∉ q) : lastOpen d (d :: q) = d :: q := by
  rw [lastOpen, if_pos mem_cons_self, reverse_cons, takeWhile_lead_cons, reverse_reverse]
  simpa using h

/-- What is left depends only on what follows some delimiter. -/
theorem lastOpen_append (lead : List α) (h : d ∈ buf) :
    lastOpen d (lead ++ buf) = lastOpen d buf := by
  obtain ⟨q, t, hrev, hq⟩ := eq_append_cons_of_mem (mem_reverse.2 h)
  rw [lastOpen, lastOpen, if_pos (mem_append_right _ h), if_pos h, reverse_append,
    hrev, append_assoc, cons_append, takeWhile_lead_cons hq, takeWhile_lead_cons hq]

/-- A reader keeps the buffer from its last delimiter on. -/
theorem parse_rest (buf : List α) : (parse d read buf).2 = lastOpen d buf := by
  induction buf using shape_induction (d := d) with
  | none buf hbuf => rw [parse_of_not_mem hbuf, lastOpen_of_not_mem hbuf]
  | opened lead q hlead hq =>
    rw [parse_opened hlead hq, lastOpen_append _ mem_cons_self, lastOpen_cons hq]
  | closed lead q t hlead hq ih =>
    rw [parse_closed hlead hq, ih, lastOpen_append, ← cons_append, lastOpen_append]
    · exact mem_cons_self
    · exact mem_cons_self

/-- What is left of two pieces is left of what the first one leaves and the second. -/
theorem lastOpen_lastOpen_append (d : α) (first second : List α) :
    lastOpen d (lastOpen d first ++ second) = lastOpen d (first ++ second) := by
  have hrest : (parse d (fun _ => (none : Option Unit)) (first ++ second)).2 = _ :=
    congrArg Prod.snd (parse_append first second)
  rw [parse_rest, parse_rest, parse_rest] at hrest
  exact hrest.symm

/-- What is left is nothing or one open segment. -/
theorem lastOpen_eq_nil_or_cons (d : α) (buf : List α) :
    lastOpen d buf = [] ∨ ∃ q, d ∉ q ∧ lastOpen d buf = d :: q := by
  induction buf using shape_induction (d := d) with
  | none buf hbuf => exact .inl (lastOpen_of_not_mem hbuf)
  | opened lead q hlead hq =>
    refine .inr ⟨q, hq, ?_⟩
    rw [lastOpen_append _ mem_cons_self, lastOpen_cons hq]
  | closed lead q t hlead hq ih =>
    rwa [lastOpen_append, ← cons_append, lastOpen_append] <;> exact mem_cons_self

/-- What is left has no closed segment. -/
theorem parse_lastOpen (buf : List α) : parse d read (lastOpen d buf) = ([], lastOpen d buf) := by
  obtain hnil | ⟨q, hq, hcons⟩ := lastOpen_eq_nil_or_cons d buf
  · rw [hnil]
    exact parse_of_not_mem not_mem_nil
  · rw [hcons]
    exact parse_opened not_mem_nil hq

/-- An open segment takes in what precedes the next delimiter and loses nothing after it. -/
theorem length_parse_le_cons (hq : d ∉ q) (rest : List α) :
    (parse d read rest).1.length ≤ (parse d read (d :: (q ++ rest))).1.length := by
  induction rest using shape_induction (d := d) with
  | none rest hrest =>
    rw [parse_of_not_mem hrest]
    exact Nat.zero_le _
  | opened lead q' hlead hq' =>
    rw [parse_opened hlead hq']
    exact Nat.zero_le _
  | closed lead q' t hlead hq' _ =>
    have hopen : d ∉ q ++ lead := by simp [hq, hlead]
    have hfirst : parse d read (d :: ((q ++ lead) ++ d :: (q' ++ d :: t))) = _ :=
      parse_closed not_mem_nil hopen
    have hnext : parse d read (d :: (q' ++ d :: t)) = _ := parse_closed not_mem_nil hq'
    rw [← append_assoc, hfirst, hnext, parse_closed hlead hq']
    simp only [length_append]
    omega

/-- Losing a first piece never adds a segment. -/
theorem length_parse_le_append (first second : List α) :
    (parse d read second).1.length ≤ (parse d read (first ++ second)).1.length := by
  rw [parse_append, parse_rest, length_append]
  refine Nat.le_trans ?_ (Nat.le_add_left _ _)
  obtain hnil | ⟨q, hq, hcons⟩ := lastOpen_eq_nil_or_cons d first
  · rw [hnil, nil_append]
  · rw [hcons, cons_append]
    exact length_parse_le_cons hq second

/-- What stands between one delimiter and the next. -/
def gaps (d : α) (stream : List α) : List (List α) := (stream.splitOn d).tail.dropLast

theorem splitOn_lead_cons (h : d ∉ lead) (rest : List α) :
    (lead ++ d :: rest).splitOn d = lead :: rest.splitOn d := by
  refine splitOnP_append_cons_of_forall_mem (p := (· == d)) (fun a ha => ?_) d
    (beq_self_eq_true d) rest
  exact beq_eq_false_iff_ne.2 fun had => h (had ▸ ha)

theorem parse_eq_gaps (stream : List α) :
    (parse d read stream).1 = (gaps d stream).filterMap read := by
  induction stream using shape_induction (d := d) with
  | none stream hstream =>
    rw [parse_of_not_mem hstream, gaps, splitOn_eq_singleton hstream]
    rfl
  | opened lead q hlead hq =>
    rw [parse_opened hlead hq, gaps, splitOn_lead_cons hlead, splitOn_eq_singleton hq]
    rfl
  | closed lead q t hlead hq ih =>
    -- The closing delimiter opens the rest, whose first segment is empty.
    have hfirst : gaps d (d :: t) = (t.splitOn d).dropLast := by
      have hempty : (d :: t).splitOn d = [] :: t.splitOn d := splitOn_lead_cons not_mem_nil t
      rw [gaps, hempty, tail_cons]
    have hgaps : gaps d (lead ++ d :: (q ++ d :: t)) = q :: gaps d (d :: t) := by
      rw [gaps, splitOn_lead_cons hlead, splitOn_lead_cons hq, tail_cons,
        dropLast_cons_of_ne_nil (splitOn_ne_nil d t), hfirst]
    rw [parse_closed hlead hq, hgaps, ih]
    cases hread : read q with
    | none => rw [filterMap_cons_none hread, Option.toList_none, nil_append]
    | some x => rw [filterMap_cons_some hread, Option.toList_some, singleton_append]

end MeshsatHub.Delimited
