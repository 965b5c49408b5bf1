import Mathlib
import MeshsatHub.Foundations.Interleaving

/-!
# Texting between satellite modems and kits

`FitSMS` cuts a text for the kits to one message. A string is the list of its runes. The tenant, the
modem and the words of the reply are fixed. A clock is past the first ten minutes of 1970.
-/

namespace MeshsatHub.Satchat
open Interleaving Runs List

section

def gsmExtended : List Char := ['^', '\x7b', '\x7d', '\\', '[', '~', ']', '|', '€']

/-- The characters beyond ASCII that `FitSMS` takes for GSM characters. -/
def gsmListed : List Char :=
  ['£', '¥', 'è', 'é', 'ù', 'ì', 'ò', 'Ç', 'Ø', 'ø', 'Å', 'å', 'Δ', 'Φ', 'Γ', 'Λ', 'Ω', 'Π', 'Ψ',
    'Σ', 'Θ', 'Ξ', 'Æ', 'æ', 'ß', 'É', 'Ä', 'Ö', 'Ñ', 'Ü', '§', '¿', 'ä', 'ö', 'ñ', 'ü', 'à', '¡',
    '¤']

def smsLimit (full : List Char) : Nat :=
  if full.any fun r => 127 < r.toNat && r ∉ gsmListed then 70 else 160

def cost (limit : Nat) (r : Char) : Nat := if limit = 160 ∧ r ∈ gsmExtended then 2 else 1

/-- The second loop of `FitSMS`. -/
def fit (limit : Nat) : Nat → List Char → List Char
  | _, [] => []
  | used, r :: rest =>
    if limit < used + cost limit r then [] else r :: fit limit (used + cost limit r) rest

/-- A beginning of the text for the kits. -/
def fitSMS (head text : List Char) : List Char := fit (smsLimit (head ++ text)) 0 (head ++ text)

/-- The basic table of GSM 03.38: beyond ASCII the characters listed, and of printable ASCII all but
the back-quote and what is in the extension table. -/
def gsmBasic : List Char :=
  gsmListed ++ '\n' :: '\r' :: ((range 95).map fun n => Char.ofNat (32 + n)).filter
    (· ∉ Char.ofNat 0x60 :: gsmExtended)

/-- The extension table: these take two septets. -/
def gsmExtension : List Char := Char.ofNat 12 :: gsmExtended

def septets (r : Char) : Nat := if r ∈ gsmExtension then 2 else 1

def codeUnits (r : Char) : Nat := if 0xFFFF < r.toNat then 2 else 1

def OneMessage (out : List Char) : Prop :=
  (out ⊆ gsmBasic ++ gsmExtension → (out.map septets).sum ≤ 160) ∧
    (¬out ⊆ gsmBasic ++ gsmExtension → (out.map codeUnits).sum ≤ 70)

instance (out : List Char) : Decidable (OneMessage out) := inferInstanceAs (Decidable (_ ∧ _))

/-- What is kept takes one message. Among characters of GSM a form feed takes one septet more than
it is counted for; with others, one code unit more is taken by what is beyond the basic plane. -/
def KeptFits (limit : Nat) (out : List Char) : Prop :=
  if out ⊆ gsmBasic ++ gsmExtension then
    limit = 160 → (out.map (cost limit)).sum + out.countP (· = Char.ofNat 12) ≤ 160
  else out.length + out.countP (0xFFFF < ·.toNat) ≤ 70

/-- What `FitSMS` counts as the carrier does: ASCII that GSM has in one of its tables, but no form
feed, and nothing beyond the basic plane. -/
def countedRight (r : Char) : Bool :=
  r ≠ Char.ofNat 12 && r.toNat ≤ 0xFFFF && (127 < r.toNat || r ∈ gsmBasic ++ gsmExtended)

variable {limit used k : Nat} {l : List Char}

theorem prefix_fit (limit used : Nat) (l : List Char) : fit limit used l <+: l := by
  induction l generalizing used with
  | nil => exact prefix_refl _
  | cons r rest ih =>
    rw [fit]
    split
    · exact nil_prefix
    · exact (prefix_cons_inj r).2 (ih _)

/-- What `k` times the counted cost bounds is within `k` times the limit. -/
theorem sum_fit_le {weight : Char → Nat} (hweight : ∀ r ∈ l, weight r ≤ k * cost limit r)
    (hused : used ≤ limit) : ((fit limit used l).map weight).sum + k * used ≤ k * limit := by
  induction l generalizing used with
  | nil => simpa [fit] using Nat.mul_le_mul_left k hused
  | cons r rest ih =>
    obtain ⟨hr, hrest⟩ := forall_mem_cons.1 hweight
    rw [fit]
    split
    · simpa using Nat.mul_le_mul_left k hused
    · next hroom =>
      have := ih hrest (Nat.not_lt.1 hroom)
      rw [Nat.mul_add] at this
      rw [map_cons, sum_cons]
      omega

theorem mem_gsm_of_counted {r : Char} (hr : countedRight r)
    (hlisted : 127 < r.toNat → r ∈ gsmListed) : r ∈ gsmBasic ++ gsmExtended := by
  simp only [countedRight, Bool.and_eq_true, Bool.or_eq_true, decide_eq_true_eq] at hr
  obtain hhigh | hmem := hr.2
  · exact mem_append_left _ (mem_append_left _ (hlisted hhigh))
  · exact hmem

theorem sum_map_add_countP (weight counted : Char → Nat) (more : Char → Bool)
    (h : ∀ r, weight r = counted r + (more r).toNat) (l : List Char) :
    (l.map weight).sum = (l.map counted).sum + l.countP more := by
  induction l with
  | nil => rfl
  | cons r l ih =>
    rw [map_cons, sum_cons, map_cons, sum_cons, countP_cons, ih, h r]
    cases more r <;> simp <;> omega

theorem sum_codeUnits (l : List Char) :
    (l.map codeUnits).sum = l.length + l.countP (0xFFFF < ·.toNat) := by
  rw [sum_map_add_countP codeUnits (fun _ => 1) (0xFFFF < ·.toNat) fun r => ?_]
  · simp
  · unfold codeUnits
    split <;> simp [*]

theorem smsLimit_eq (full : List Char) : smsLimit full = 70 ∨ smsLimit full = 160 := by
  unfold smsLimit
  split <;> simp

theorem length_fit_le (l : List Char) : (fit 70 0 l).length ≤ 70 := by
  have hsum : ((fit 70 0 l).map fun _ => 1).sum + 1 * 0 ≤ 1 * 70 :=
    sum_fit_le (fun r _ => by simp [cost]) (Nat.zero_le _)
  simpa using hsum

/-- What is kept of a text fits one message as the carrier counts it exactly if it does as it is
counted, with one for each character that is counted too low. -/
theorem oneMessage_fit_iff (full : List Char) : OneMessage (fit (smsLimit full) 0 full) ↔
      KeptFits (smsLimit full) (fit (smsLimit full) 0 full) := by
  unfold OneMessage KeptFits
  split
  next hgsm =>
    simp only [hgsm, true_implies, not_true, false_implies, and_true]
    obtain hlimit | hlimit := smsLimit_eq full
    · have hseptets : ((fit 70 0 full).map septets).sum + 2 * 0 ≤ 2 * 70 := by
        refine sum_fit_le (fun r _ => ?_) (Nat.zero_le _)
        unfold septets cost
        split <;> simp
      rw [hlimit]
      omega
    · rw [hlimit, sum_map_add_countP septets (cost 160) (· = Char.ofNat 12) fun r => ?_]
      · simp
      · by_cases hr : r = Char.ofNat 12
        · subst hr
          decide +kernel
        · simp [septets, gsmExtension, cost, hr]
  next hother => simp [hother, sum_codeUnits]

end

section

/-- What `time.Now` shows. -/
abbrev Clock := { seconds : Nat // 600 ≤ seconds }

structure Key where
  echo : Bool
  bucket : Nat
  deriving DecidableEq

def bucket (seconds : Nat) : Nat := seconds / 600

def replyKey (seconds : Nat) : Key := ⟨false, bucket seconds⟩

def echoKey (seconds : Nat) : Key := ⟨true, bucket seconds⟩

/-- What a copy claims, in this order. -/
def keys (now : Clock) : List Key :=
  [replyKey (now - 600), replyKey now, echoKey (now - 600), echoKey now]

inductive Stage where
  | claiming
  | sent
  | dropped
  deriving DecidableEq

/-- A copy of the reply, with the number of the claims it has won. -/
structure Copy where
  now : Clock
  won : Nat
  stage : Stage
  deriving DecidableEq

def claimOnce (claims : List Key) (c : Copy) (_ : Unit) : Option (List Key × Copy) :=
  if c.stage ≠ .claiming then none
  else match (keys c.now)[c.won]? with
    | none => some (claims, { c with stage := .sent })
    | some k =>
      if k ∈ claims then some (claims, { c with stage := .dropped })
      else some (k :: claims, { c with won := c.won + 1 })

/-- A kit's reply goes to the modem once, although copies of it come in by SMS and over MQTT: each
claims the ten minutes before it and its own. -/
def toSatellite : Program (List Key) Copy Clock Unit where
  start claims now := some (claims, ⟨now, 0, .claiming⟩)
  perform := claimOnce

theorem getElem?_keys {now : Clock} {i : Nat} {k : Key} :
    (keys now)[i]? = some k ↔ i < 4 ∧ k = ⟨decide (2 ≤ i), bucket now - 1 + i % 2⟩ := by
  have hbefore : bucket (now - 600) = bucket now - 1 := by
    unfold bucket
    omega
  have hpos : bucket now - 1 + 1 = bucket now := by
    unfold bucket
    omega
  match i with
  | 0 | 1 | 2 | 3 => simp [keys, replyKey, echoKey, hbefore, hpos, eq_comm]
  | i + 4 => simp [keys]

def Copy.holds (c : Copy) (k : Key) : Bool := k ∈ (keys c.now).take c.won

theorem Copy.holds_iff {c : Copy} {k : Key} :
    c.holds k ↔ ∃ i < c.won, (keys c.now)[i]? = some k := by
  simp only [holds, decide_eq_true_eq, mem_iff_getElem?, getElem?_take]
  refine exists_congr fun i => ?_
  split <;> simp [*]

structure Copy.Sound (claims : List Key) (c : Copy) : Prop where
  blocked : c.stage = .dropped → ∃ k ∈ claims, (keys c.now)[c.won]? = some k
  through : c.stage = .sent → 4 ≤ c.won

structure Claimed (before : List Key) (s : System (List Key) Copy) : Prop where
  held : ∀ k, s.calls.countP (·.holds k) + before.count k = s.shared.count k
  nodup : s.shared.Nodup
  copies : ∀ c ∈ s.calls, c.Sound s.shared

variable {before claims : List Key} {s : System (List Key) Copy}

theorem Claimed.acted {i : Nat} {c c' : Copy} (h : Claimed before s) (hi : s.calls[i]? = some c)
    (hheld : ∀ k, (c'.holds k).toNat + s.shared.count k = (c.holds k).toNat + claims.count k)
    (hnodup : claims.Nodup) (hmore : s.shared ⊆ claims) (hc : c'.Sound claims) :
    Claimed before ⟨claims, s.calls.set i c'⟩ := by
  refine ⟨fun k => ?_, hnodup, all_mem_set (fun m hm => ?_) hc⟩
  · have hacted := countP_acted hi c' (·.holds k)
    have hbefore := h.held k
    have hnow := hheld k
    dsimp only at *
    omega
  · refine ⟨fun hdropped => ?_, (h.copies m hm).through⟩
    obtain ⟨k, hk, hkey⟩ := (h.copies m hm).blocked hdropped
    exact ⟨k, hmore hk, hkey⟩

theorem claimed_of_reaches (hbefore : before.Nodup)
    (h : Reaches (step toSatellite) (fun _ _ => True) ⟨before, []⟩ s) : Claimed before s := by
  refine h.invariant ⟨by simp, hbefore, nofun⟩ fun s e t hs _ hstep => ?_
  obtain ⟨now, g, c, hstart⟩ | ⟨i, _, c, g, c', hi, hperform⟩ := step_cases hstep
  · cases hstart
    refine ⟨fun k => ?_, hs.nodup, all_mem_snoc hs.copies ⟨nofun, nofun⟩⟩
    simpa [countP_append, Copy.holds] using hs.held k
  · simp only [toSatellite] at hperform
    revert hperform
    fun_cases claimOnce s.shared c () with rintro ⟨⟩
    | case2 _ hend =>
      refine hs.acted hi (fun _ => rfl) hs.nodup (Subset.refl _) ⟨nofun, fun _ => ?_⟩
      simpa [keys] using hend
    | case3 _ k hkey hmem =>
      exact hs.acted hi (fun _ => rfl) hs.nodup (Subset.refl _) ⟨fun _ => ⟨k, hmem, hkey⟩, nofun⟩
    | case4 hstage k hkey hfree =>
      have hstage : c.stage = .claiming := not_not.1 hstage
      have hunheld : c.holds k = false := by
        have hnone := hs.held k
        rw [count_eq_zero.2 hfree, Nat.add_eq_zero_iff, countP_eq_zero] at hnone
        simpa using hnone.1 c (mem_of_getElem? hi)
      refine hs.acted hi (fun k' => ?_) (hs.nodup.cons hfree) (subset_cons_self _ _) ⟨?_, ?_⟩
      · simp only [Copy.holds, take_add_one, hkey] at hunheld ⊢
        by_cases hk : k = k'
        · subst hk
          simp_all
          omega
        · simp [hk, Ne.symm hk]
      · exact fun hdropped => nomatch hstage.symm.trans hdropped
      · exact fun hsent => nomatch hstage.symm.trans hsent

/-- Of copies that are handled within ten minutes, twenty minutes after all earlier ones, exactly
one reaches the modem. -/
theorem reply_sent_once {s₀ : System (List Key) Copy}
    (h₀ : Reaches (step toSatellite) (fun _ _ => True) ⟨[], []⟩ s₀)
    (hs : Reaches (step toSatellite) (fun _ _ => True) ⟨s₀.shared, []⟩ s)
    (hlater : ∀ c ∈ s.calls, ∀ d ∈ s₀.calls, d.now.1 + 1200 ≤ c.now)
    (hclose : ∀ c ∈ s.calls, ∀ d ∈ s.calls, d.now.1 ≤ c.now + 600)
    (hhandled : ∀ c ∈ s.calls, c.stage ≠ .claiming) (hsome : s.calls ≠ []) :
    s.calls.countP (·.stage = .sent) = 1 := by
  have hclaimed₀ := claimed_of_reaches nodup_nil h₀
  have hclaimed := claimed_of_reaches hclaimed₀.nodup hs
  have hfresh : ∀ c ∈ s.calls, ∀ (i : Nat) k, (keys c.now)[i]? = some k →
      s₀.shared.count k = 0 := by
    intro c hc i k hkey
    rw [← hclaimed₀.held k, count_nil, Nat.add_zero, countP_eq_zero]
    intro d hd hholds
    obtain ⟨j, -, hkey'⟩ := Copy.holds_iff.1 hholds
    have := hlater c hc d hd
    obtain ⟨-, rfl⟩ := getElem?_keys.1 hkey
    have hbucket := congrArg Key.bucket (getElem?_keys.1 hkey').2
    simp only [bucket] at hbucket
    have := d.now.2
    omega
  have hnonempty := (toFinset_nonempty_iff _).2 hsome
  apply Nat.le_antisymm
  · -- All that are through hold the claim on the first ten minutes.
    obtain ⟨c, hc, hmin⟩ := s.calls.toFinset.exists_min_image (fun c => bucket c.now) hnonempty
    rw [mem_toFinset] at hc
    have hall : ∀ d ∈ s.calls, d.stage = .sent → d.holds ⟨false, bucket c.now⟩ := by
      intro d hd hsent
      have hthrough := (hclaimed.copies d hd).through hsent
      have hle : bucket c.now ≤ bucket d.now := hmin d (mem_toFinset.2 hd)
      have hcd : bucket d.now ≤ bucket c.now + 1 ∧ 0 < bucket d.now := by
        have hnear := hclose c hc d hd
        have := d.now.2
        unfold bucket
        omega
      refine Copy.holds_iff.2 ⟨bucket c.now + 1 - bucket d.now, by omega, getElem?_keys.2 ?_⟩
      rw [Key.mk.injEq, eq_comm, decide_eq_false_iff_not]
      omega
    calc s.calls.countP (·.stage = .sent)
        ≤ s.calls.countP (·.holds ⟨false, bucket c.now⟩) :=
          countP_mono_left fun d hd hsent => hall d hd (of_decide_eq_true hsent)
      _ ≤ s.shared.count ⟨false, bucket c.now⟩ := hclaimed.held _ ▸ Nat.le_add_right _ _
      _ ≤ 1 := nodup_iff_count_le_one.1 hclaimed.nodup _
  · -- Whoever has lost a claim is behind the one who has won it.
    obtain ⟨c, hc, hmax⟩ := s.calls.toFinset.exists_max_image
      (fun c => 2 * c.won + bucket c.now) hnonempty
    rw [mem_toFinset] at hc
    refine countP_pos_iff.2 ⟨c, hc, decide_eq_true ?_⟩
    cases hstage : c.stage with
    | claiming => exact absurd hstage (hhandled c hc)
    | sent => rfl
    | dropped =>
      obtain ⟨k, hk, hkey⟩ := (hclaimed.copies c hc).blocked hstage
      have hheld := hclaimed.held k
      rw [hfresh c hc _ k hkey, Nat.add_zero] at hheld
      obtain ⟨d, hd, hholds⟩ := countP_pos_iff.1 (hheld ▸ count_pos_iff.2 hk)
      obtain ⟨j, hj, hkey'⟩ := Copy.holds_iff.1 hholds
      have hle := hmax d (mem_toFinset.2 hd)
      obtain ⟨hwon, rfl⟩ := getElem?_keys.1 hkey
      obtain ⟨hj', heq⟩ := getElem?_keys.1 hkey'
      simp only [Key.mk.injEq, decide_eq_decide, bucket] at heq hle
      omega

/-- Two copies of a reply on both sides of a change of ten minutes, after an earlier one. -/
theorem reply_sent_once_across : ∃ s₀ s,
    Reaches (step toSatellite) (fun _ _ => True) ⟨[], []⟩ s₀ ∧ s₀.calls.map (·.now.1) = [600] ∧
      Reaches (step toSatellite) (fun _ _ => True) ⟨s₀.shared, []⟩ s ∧
      s.calls.map (·.now.1) = [2399, 2400] ∧ s.calls.countP (·.stage = .sent) = 1 := by
  obtain ⟨s₀, h₀, hshared, hnow₀, hearly⟩ : ∃ s₀,
      Reaches (step toSatellite) (fun _ _ => True) ⟨[], []⟩ s₀ ∧
        s₀.shared = [⟨true, 1⟩, ⟨true, 0⟩, ⟨false, 1⟩, ⟨false, 0⟩] ∧
        s₀.calls.map (·.now.1) = [600] ∧ ∀ d ∈ s₀.calls, d.now.1 ≤ 600 :=
    exists_reaches_of_decide
      (.start ⟨600, of_decide_eq_true rfl⟩ :: replicate 5 (.act 0 ())) (by decide +kernel)
  obtain ⟨s, hs, hnow, hlate, hclose, hhandled, hsome⟩ : ∃ s,
      Reaches (step toSatellite) (fun _ _ => True)
          ⟨[⟨true, 1⟩, ⟨true, 0⟩, ⟨false, 1⟩, ⟨false, 0⟩], []⟩ s ∧
        s.calls.map (·.now.1) = [2399, 2400] ∧ (∀ c ∈ s.calls, 1800 ≤ c.now.1) ∧
        (∀ c ∈ s.calls, ∀ d ∈ s.calls, d.now.1 ≤ c.now + 600) ∧
        (∀ c ∈ s.calls, c.stage ≠ .claiming) ∧ s.calls ≠ [] :=
    exists_reaches_of_decide ([.start ⟨2399, of_decide_eq_true rfl⟩,
      .start ⟨2400, of_decide_eq_true rfl⟩, .act 0 (), .act 1 (), .act 0 ()] ++
        replicate 4 (.act 1 ())) (by decide +kernel)
  rw [← hshared] at hs
  refine ⟨s₀, s, h₀, hnow₀, hs, hnow, reply_sent_once h₀ hs (fun c hc d hd => ?_) hclose hhandled
    hsome⟩
  have hd := hearly d hd
  have hc := hlate c hc
  omega

end

end MeshsatHub.Satchat
