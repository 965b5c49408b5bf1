import MeshsatHub.Rnsnode.Classes

/-!
# What holds of the connections between the locked steps

The log tells for every connection whether it was opened and what it was bound to. A read loop that
is about to bind a connection knows that it has not been bound; a call that closes a node's
connections has all of those in hand that are still on the listener.
-/

namespace MeshsatHub.Rnsnode
open Interleaving List

section

def After.reads : After → Option Nat
  | .reading id => some id
  | .returned _ => none

def Call.reads : Call → Option Nat
  | .announcing id | .reading id | .receiving id _ | .bindingMain id | .listing id _
  | .trying id _ _ _ | .checking id _ _ _ | .binding id _ _ _ | .inserting id _ _
  | .confirming id _ | .withdrawing id _ | .handing id _ | .unmatching id => some id
  | .closing _ _ after | .removing _ _ after | .unbinding _ _ after
  | .unlisting _ _ _ after => after.reads
  | .releasing _ | .sending _ _ | .writing _ _ | .dropping _ | .returned _ => none

/-- The node whose key has opened the frame in hand, until the connection is in its list. -/
def Call.classifies : Call → Option Nat
  | .checking _ n _ _ | .binding _ n _ _ | .inserting _ n _ => some n
  | _ => none

/-- The node that was found live, until the connection is in its list. -/
def Call.enters : Call → Option Nat
  | .binding _ n _ _ | .inserting _ n _ => some n
  | _ => none

def After.revokes : After → Option Return
  | .reading _ => none
  | .returned r => some r

def Call.revokes : Call → Option Return
  | .closing _ _ after | .removing _ _ after | .unbinding _ _ after
  | .unlisting _ _ _ after => after.revokes
  | .returned r => some r
  | _ => none

def Call.unbinds : Call → Option Nat
  | .unbinding id _ _ => some id
  | _ => none

/-- The connection that a call takes from a node's list, unless it finds it bound. -/
def Call.unlists : Call → Option (Nat × Nat)
  | .unlisting id n _ _ | .confirming id n | .withdrawing id n => some (id, n)
  | _ => none

/-- The connection that a call is taking out of the tables. -/
def Call.worksOn : Call → Option Nat
  | .unbinding id _ _ | .unlisting id _ _ _ | .confirming id _ | .withdrawing id _ => some id
  | _ => none

namespace Store
variable (g : Store)

def tenant (n : Nat) : Option String := g.nodes[n]?.map TenantNode.tenant

def Bound (id n : Nat) : Prop := ∃ key frame, .bound id n key frame ∈ g.log

def Dead (n : Nat) : Prop := n < g.nodes.length ∧ ∀ tenant, g.privates tenant ≠ some n

/-- A return says that the connection may not be the node's any more: it was bound with a key
from before the change, or the node was released. -/
def Revoked : Return → Nat → Nat → Prop
  | .served, _, _ => False
  | .changed m key, n, id => m = n ∧ ∃ old frame, .bound id n old frame ∈ g.log ∧
    old.made < key.made
  | .released m, n, _ => m = n

end Store

/-- What the tables have to do with what has happened. -/
structure Shared (g : Store) : Prop where
  opened_le : ∀ id, .opened id ∈ g.log → id ≤ g.next
  opened_of_binding : ∀ id b, g.bindings id = some b → .opened id ∈ g.log
  opened_of_bound : ∀ id n, g.Bound id n → .opened id ∈ g.log
  bound_unique : ∀ id n key frame n' key' frame', .bound id n key frame ∈ g.log →
    .bound id n' key' frame' ∈ g.log → n = n' ∧ key = key'
  tn_iff : ∀ id b n, g.bindings id = some b → (b.tn = some n ↔ g.Bound id n)
  tn_of_main : ∀ id b, g.bindings id = some b → b.main = true → b.tn = none
  bound_of_listed : ∀ n id, id ∈ g.ifaces n → g.Bound id n
  keyed_of_bound : ∀ id n key frame, .bound id n key frame ∈ g.log →
    key.code.unwrap frame = true ∧ ∃ tenant, g.tenant n = some tenant ∧ .keyed tenant n key ∈ g.log
  bound_of_use : ∀ n id, .handed n id ∈ g.log ∨ .sent n id ∈ g.log → g.Bound id n
  keyed_of_key : ∀ n tenant key, g.tenant n = some tenant → g.key n = some key →
    .keyed tenant n key ∈ g.log
  tenant_of_private : ∀ tenant n, g.privates tenant = some n → g.tenant n = some tenant

/-- A connection that has not been classified. -/
structure Sorting (g : Store) (id : Nat) : Prop where
  opened : .opened id ∈ g.log
  unbound : ∀ n, ¬g.Bound id n
  notMain : g.isMainBound id = false

variable (g : Store)

/-- What a return will say, of connections that are not in hand any more. -/
def Covers (targets : List Nat) (r : Return) : Prop :=
  ∀ n id, g.Revoked r n id → id ∈ g.ifaces n → id ∈ g.conns → id ∈ targets

def Lasting : Return → Prop
  | .served => True
  | .changed n key => ∃ now, g.key n = some now ∧ key.made ≤ now.made
  | .released n => g.Dead n

/-- What a call that closes connections knows. -/
def Closing (targets : List Nat) : After → Prop
  | .reading id => .opened id ∈ g.log ∧ ∀ t ∈ targets, .opened t ∈ g.log
  | .returned r => (∀ t ∈ targets, .opened t ∈ g.log) ∧ Lasting g r ∧ Covers g targets r

/-- What a call knows where it stands. -/
def Local : Call → Prop
  | .announcing id => id ≤ g.next ∧ .opened id ∉ g.log ∧ id ∈ g.conns
  | .reading id | .receiving id _ | .unmatching id => .opened id ∈ g.log
  | .bindingMain id | .listing id _ | .trying id _ _ _ => Sorting g id
  | .checking id n key frame | .binding id n key frame =>
    Sorting g id ∧ key.code.unwrap frame = true ∧ g.key n = some key
  | .inserting id n key =>
    .opened id ∈ g.log ∧ g.key n = some key ∧ ∃ frame, .bound id n key frame ∈ g.log
  | .confirming id n | .withdrawing id n | .handing id n => .opened id ∈ g.log ∧ g.Bound id n
  | .closing id rest after | .removing id rest after => Closing g (id :: rest) after
  | .unbinding _ rest after | .unlisting _ _ rest after => Closing g rest after
  | .releasing n => g.Dead n
  | .sending (some n) id | .writing (some n) id => g.Bound id n
  | .sending none _ | .writing none _ | .dropping _ => True
  | .returned r => Lasting g r ∧ Covers g [] r

/-- A connection has one read loop, and nobody enters the list of a node whose connections
are being closed for good. -/
structure Between (l m : Call) : Prop where
  readers : ∀ id, l.reads = some id → m.reads ≠ some id
  left : ∀ n, l.revokes = some (.released n) → m.enters ≠ some n
  right : ∀ n, m.revokes = some (.released n) → l.enters ≠ some n

instance : Std.Symm Between :=
  ⟨fun _ _ h => ⟨fun id hm hl => h.readers id hl hm, h.right, h.left⟩⟩

def OwesUnbinding (id : Nat) : Prop := g.bindings id ≠ none ∧ id ∉ g.conns

/-- A place in a list without a binding. -/
def OwesUnlisting (q : Nat × Nat) : Prop :=
  q.1 ∈ g.ifaces q.2 ∧ g.bindings q.1 = none

structure Sound (s : System Store Call) : Prop where
  inv : Inv Shared Local Between s
  unbinding : Attended OwesUnbinding (fun l id => l.unbinds = some id) s
  unlisting : Attended OwesUnlisting (fun l q => l.unlists = some q) s

end

section Tables
variable {g : Store} {id n m : Nat} {e : Entry}

@[simp] theorem ifaces_note : (g.note e).ifaces n = g.ifaces n := rfl

variable {b : Option Binding} {c : Nat} {f : List Nat → List Nat} {key : Key}

@[simp] theorem mem_note {x : Entry} : x ∈ (g.note e).log ↔ x ∈ g.log ∨ x = e := by
  simp [Store.note]

@[simp] theorem bindings_bind_self : (g.bind id b).bindings id = b := by
  simp [Store.bind]

theorem bindings_bind_ne (h : c ≠ id) : (g.bind id b).bindings c = g.bindings c := by
  simp [Store.bind, h]

theorem mem_remove : c ∈ (g.remove id).conns ↔ c ∈ g.conns ∧ c ≠ id := by
  simp [Store.remove]

theorem getElem?_modify_map {A B : Type*} (xs : List A) (i j : Nat) (f : A → A) (p : A → B)
    (hp : ∀ a, p (f a) = p a) : (xs.modify i f)[j]?.map p = xs[j]?.map p := by
  rw [getElem?_modify]
  cases hj : xs[j]? with
  | none => rfl
  | some a =>
    simp only [Option.map_eq_map, Option.map_some]
    split
    · rw [hp]
    · rfl

@[simp] theorem key_list : (g.list n f).key m = g.key m :=
  getElem?_modify_map _ _ _ _ _ fun _ => rfl

@[simp] theorem tenant_list : (g.list n f).tenant m = g.tenant m :=
  getElem?_modify_map _ _ _ _ _ fun _ => rfl

@[simp] theorem tenant_rekey : (g.rekey n key).tenant m = g.tenant m :=
  getElem?_modify_map _ _ _ _ _ fun _ => rfl

@[simp] theorem ifaces_rekey : (g.rekey n key).ifaces m = g.ifaces m := by
  unfold Store.ifaces Store.rekey
  rw [getElem?_modify_map]
  exact fun _ => rfl

theorem key_rekey :
    (g.rekey n key).key m = if n = m then (g.key m).map fun _ => key else g.key m := by
  unfold Store.key Store.rekey
  rw [getElem?_modify]
  cases g.nodes[m]? with
  | none => simp
  | some node => split <;> simp_all

theorem ifaces_list_ne (h : n ≠ m) : (g.list n f).ifaces m = g.ifaces m := by
  unfold Store.ifaces Store.list
  rw [getElem?_modify]
  simp [h]

theorem mem_ifaces_list (h : id ∈ (g.list n f).ifaces n) : id ∈ f (g.ifaces n) := by
  unfold Store.ifaces Store.list at h
  rw [getElem?_modify] at h
  unfold Store.ifaces
  cases hn : g.nodes[n]? with
  | none => simp [hn] at h
  | some node => simpa [hn] using h

theorem mem_ifaces_insert (h : c ∈ (g.list n (List.insert id)).ifaces m) :
    c ∈ g.ifaces m ∨ m = n ∧ c = id := by
  by_cases hm : n = m
  · subst hm
    obtain rfl | hbefore := mem_insert_iff.1 (mem_ifaces_list h)
    · exact .inr ⟨rfl, rfl⟩
    · exact .inl hbefore
  · rw [ifaces_list_ne hm] at h
    exact .inl h

theorem mem_ifaces_filter (h : c ∈ (g.list n (·.filter (· ≠ id))).ifaces m) :
    c ∈ g.ifaces m ∧ (m = n → c ≠ id) := by
  by_cases hm : n = m
  · subst hm
    have hmem := mem_ifaces_list h
    rw [mem_filter] at hmem
    exact ⟨hmem.1, fun _ => by simpa using hmem.2⟩
  · rw [ifaces_list_ne hm] at h
    exact ⟨h, fun heq => absurd heq.symm hm⟩

theorem exists_private_of_live (h : g.live n) : ∃ tenant, g.privates tenant = some n := by
  unfold Store.live at h
  split at h
  case h_1 node _ => exact ⟨node.tenant, by simpa using h⟩
  case h_2 => cases h

end Tables

variable {g g' : Store} {id n : Nat} {l m : Call}

theorem bound_of_log (hlog : ∀ e ∈ g.log, e ∈ g'.log) (h : g.Bound id n) : g'.Bound id n := by
  obtain ⟨key, frame, hmem⟩ := h
  exact ⟨key, frame, hlog _ hmem⟩

section
variable (h : Shared g)
include h

theorem Shared.listed (f : List Nat → List Nat)
    (hf : ∀ m c, c ∈ (g.list n f).ifaces m → c ∈ g.ifaces m ∨ g.Bound c m) :
    Shared (g.list n f) := by
  refine { h with
    bound_of_listed := ?_, keyed_of_bound := ?_, keyed_of_key := ?_, tenant_of_private := ?_ }
  · intro m c hc
    obtain hbefore | hbound := hf m c hc
    · exact h.bound_of_listed m c hbefore
    · exact hbound
  · intro c m key frame hmem
    rw [tenant_list]
    exact h.keyed_of_bound c m key frame hmem
  · intro m tenant key
    rw [tenant_list, key_list]
    exact h.keyed_of_key m tenant key
  · intro tenant m hm
    rw [tenant_list]
    exact h.tenant_of_private tenant m hm

theorem Shared.bind_some {b : Binding} (hopened : .opened id ∈ g.log)
    (htn : ∀ n, b.tn = some n ↔ g.Bound id n) (hmain : b.main → b.tn = none) :
    Shared (g.bind id (some b)) := by
  have hcases (c : Nat) (b' : Binding) (hb : (g.bind id (some b)).bindings c = some b') :
      c = id ∧ b' = b ∨ g.bindings c = some b' := by
    by_cases hc : c = id
    · subst hc
      rw [bindings_bind_self, Option.some.injEq] at hb
      exact .inl ⟨rfl, hb.symm⟩
    · rw [bindings_bind_ne hc] at hb
      exact .inr hb
  refine { h with opened_of_binding := ?_, tn_iff := ?_, tn_of_main := ?_ }
  · intro c b' hb
    obtain ⟨rfl, -⟩ | hb := hcases c b' hb
    · exact hopened
    · exact h.opened_of_binding c b' hb
  · intro c b' n hb
    obtain ⟨rfl, rfl⟩ | hb := hcases c b' hb
    · exact htn n
    · exact h.tn_iff c b' n hb
  · intro c b' hb
    obtain ⟨rfl, rfl⟩ | hb := hcases c b' hb
    · exact hmain
    · exact h.tn_of_main c b' hb

theorem Shared.bind_none : Shared (g.bind id none) := by
  have hbefore (c : Nat) (b : Binding) (hb : (g.bind id none).bindings c = some b) :
      g.bindings c = some b := by
    by_cases hc : c = id
    · subst hc
      rw [bindings_bind_self] at hb
      cases hb
    · rwa [bindings_bind_ne hc] at hb
  exact { h with
    opened_of_binding := fun c b hb => h.opened_of_binding c b (hbefore c b hb)
    tn_iff := fun c b n hb => h.tn_iff c b n (hbefore c b hb)
    tn_of_main := fun c b hb => h.tn_of_main c b (hbefore c b hb) }

theorem Shared.noted (hopened : ∀ c, e = .opened c → c ≤ g.next)
    (hbound : ∀ c n key frame, e ≠ .bound c n key frame)
    (huse : ∀ n c, e = .handed n c ∨ e = .sent n c → g.Bound c n) : Shared (g.note e) := by
  have hbefore {c n : Nat} (hb : (g.note e).Bound c n) : g.Bound c n := by
    obtain ⟨key, frame, hmem⟩ := hb
    exact ⟨key, frame, (mem_note.1 hmem).resolve_right fun heq => hbound c n key frame heq.symm⟩
  have hafter {c n : Nat} (hb : g.Bound c n) : (g.note e).Bound c n :=
    bound_of_log (fun x hx => mem_note.2 (.inl hx)) hb
  have hold {c n : Nat} {key : Key} {frame : Frame}
      (hmem : .bound c n key frame ∈ (g.note e).log) : .bound c n key frame ∈ g.log :=
    (mem_note.1 hmem).resolve_right fun heq => hbound c n key frame heq.symm
  refine ⟨?_, ?_, ?_, ?_, ?_, h.tn_of_main, ?_, ?_, ?_, ?_, h.tenant_of_private⟩
  · intro c hc
    obtain hc | heq := mem_note.1 hc
    · exact h.opened_le c hc
    · exact hopened c heq.symm
  · exact fun c b hb => mem_note.2 (.inl (h.opened_of_binding c b hb))
  · exact fun c n hb => mem_note.2 (.inl (h.opened_of_bound c n (hbefore hb)))
  · exact fun c n key frame n' key' frame' hb hb' =>
      h.bound_unique c n key frame n' key' frame' (hold hb) (hold hb')
  · exact fun c b n hb => (h.tn_iff c b n hb).trans ⟨hafter, hbefore⟩
  · exact fun n c hc => hafter (h.bound_of_listed n c hc)
  · intro c n key frame hb
    obtain ⟨hopens, tenant, htenant, hkeyed⟩ := h.keyed_of_bound c n key frame (hold hb)
    exact ⟨hopens, tenant, htenant, mem_note.2 (.inl hkeyed)⟩
  · intro n c huses
    rw [mem_note, mem_note] at huses
    apply hafter
    obtain (hmem | heq) | (hmem | heq) := huses
    · exact h.bound_of_use n c (.inl hmem)
    · exact huse n c (.inl heq.symm)
    · exact h.bound_of_use n c (.inr hmem)
    · exact huse n c (.inr heq.symm)
  · exact fun n tenant key ht hk => mem_note.2 (.inl (h.keyed_of_key n tenant key ht hk))

theorem Shared.noted_bound {key : Key} {frame : Frame} (hopened : .opened id ∈ g.log)
    (hunbound : ∀ n, ¬g.Bound id n) (hgone : g.bindings id = none) (hopens : key.code.unwrap frame)
    (hkeyed : ∃ tenant, g.tenant n = some tenant ∧ .keyed tenant n key ∈ g.log) :
    Shared (g.note (.bound id n key frame)) := by
  have hlog : ∀ e ∈ g.log, e ∈ (g.note (.bound id n key frame)).log :=
    fun e he => mem_note.2 (.inl he)
  -- Of another connection nothing new is known.
  have hbefore {c m : Nat} (hc : c ≠ id) (hb : (g.note (.bound id n key frame)).Bound c m) :
      g.Bound c m := by
    obtain ⟨key', frame', hmem⟩ := hb
    refine ⟨key', frame', (mem_note.1 hmem).resolve_right fun heq => hc ?_⟩
    cases heq
    rfl
  refine ⟨?_, ?_, ?_, ?_, ?_, h.tn_of_main, ?_, ?_, ?_, ?_, h.tenant_of_private⟩
  · intro c hc
    exact h.opened_le c ((mem_note.1 hc).resolve_right (by simp))
  · exact fun c b hb => hlog _ (h.opened_of_binding c b hb)
  · intro c m hb
    apply hlog
    by_cases hc : c = id
    · exact hc ▸ hopened
    · exact h.opened_of_bound c m (hbefore hc hb)
  · intro c m key₁ frame₁ m' key₂ frame₂ h₁ h₂
    obtain h₁ | h₁ := mem_note.1 h₁
    · obtain h₂ | h₂ := mem_note.1 h₂
      · exact h.bound_unique c m key₁ frame₁ m' key₂ frame₂ h₁ h₂
      · cases h₂
        exact absurd ⟨key₁, frame₁, h₁⟩ (hunbound m)
    · cases h₁
      obtain h₂ | h₂ := mem_note.1 h₂
      · exact absurd ⟨key₂, frame₂, h₂⟩ (hunbound m')
      · cases h₂
        exact ⟨rfl, rfl⟩
  · intro c b m hb
    have hc : c ≠ id := by
      rintro rfl
      rw [show (g.note (.bound c n key frame)).bindings c = g.bindings c from rfl, hgone] at hb
      cases hb
    exact (h.tn_iff c b m hb).trans ⟨bound_of_log hlog, hbefore hc⟩
  · exact fun m c hc => bound_of_log hlog (h.bound_of_listed m c hc)
  · intro c m key' frame' hb
    obtain hb | heq := mem_note.1 hb
    · obtain ⟨hopens', tenant, htenant, hkeyed'⟩ := h.keyed_of_bound c m key' frame' hb
      exact ⟨hopens', tenant, htenant, hlog _ hkeyed'⟩
    · cases heq
      obtain ⟨tenant, htenant, hkeyed'⟩ := hkeyed
      exact ⟨hopens, tenant, htenant, hlog _ hkeyed'⟩
  · intro m c huse
    rw [mem_note, mem_note] at huse
    apply bound_of_log hlog
    refine h.bound_of_use m c (huse.imp ?_ ?_) <;> exact fun hmem => hmem.resolve_right (by simp)
  · exact fun m tenant key' ht hk => hlog _ (h.keyed_of_key m tenant key' ht hk)

end

structure Spares (g g' : Store) (m : Call) : Prop where
  log : ∀ e ∈ g.log, e ∈ g'.log
  next : g.next ≤ g'.next
  registered : ∀ id, m = .announcing id → id ∈ g.conns → id ∈ g'.conns
  opened : ∀ id, m.reads = some id → .opened id ∈ g'.log → .opened id ∈ g.log
  unbound : ∀ id n, m.reads = some id → g'.Bound id n → g.Bound id n
  notMain : ∀ id, m.reads = some id → g'.isMainBound id = true → g.isMainBound id = true
  key : ∀ n, m.classifies = some n → g'.key n = g.key n
  rekeyed : ∀ n key, g.key n = some key → ∃ now, g'.key n = some now ∧ key.made ≤ now.made
  dead : ∀ n, g.Dead n → g'.Dead n
  covers : ∀ r n id, m.revokes = some r → g'.Revoked r n id → id ∈ g'.ifaces n → id ∈ g'.conns →
    id ∈ g.ifaces n ∧ id ∈ g.conns

variable {r : Return} {targets : List Nat}

theorem Sorting.mono (hm : m.reads = some id) (hs : Spares g g' m) (h : Sorting g id) :
    Sorting g' id where
  opened := hs.log _ h.opened
  unbound := fun n hn => h.unbound n (hs.unbound id n hm hn)
  notMain := by
    rw [Bool.eq_false_iff]
    intro hmain
    have hbefore := hs.notMain id hm hmain
    rw [h.notMain] at hbefore
    cases hbefore

theorem Lasting.mono (hs : Spares g g' m) (h : Lasting g r) : Lasting g' r := by
  cases r with
  | served => trivial
  | changed n key =>
    obtain ⟨now, hnow, hle⟩ := h
    obtain ⟨later, hlater, hle'⟩ := hs.rekeyed n now hnow
    exact ⟨later, hlater, Nat.le_trans hle hle'⟩
  | released n => exact hs.dead n h

theorem revoked_before (hg : Shared g) (hg' : Shared g') (hlog : ∀ e ∈ g.log, e ∈ g'.log)
    (hlisted : id ∈ g.ifaces n) (h : g'.Revoked r n id) : g.Revoked r n id := by
  cases r with
  | served | released k => exact h
  | changed k key =>
    obtain ⟨rfl, old, frame, hmem, hlt⟩ := h
    obtain ⟨key', frame', hbound⟩ := hg.bound_of_listed k id hlisted
    obtain ⟨-, rfl⟩ := hg'.bound_unique id k old frame k key' frame' hmem (hlog _ hbound)
    exact ⟨rfl, old, frame', hbound, hlt⟩

theorem Covers.mono (hg : Shared g) (hg' : Shared g') (hs : Spares g g' m) (hm : m.revokes = some r)
    (h : Covers g targets r) : Covers g' targets r := by
  intro n id hrevoked hlisted hconn
  obtain ⟨hlisted', hconn'⟩ := hs.covers r n id hm hrevoked hlisted hconn
  exact h n id (revoked_before hg hg' hs.log hlisted' hrevoked) hlisted' hconn'

theorem Closing.mono {after : After} (hg : Shared g) (hg' : Shared g') (hs : Spares g g' m)
    (hm : ∀ r, after = .returned r → m.revokes = some r) (h : Closing g targets after) :
    Closing g' targets after := by
  cases after with
  | reading id => exact ⟨hs.log _ h.1, fun t ht => hs.log _ (h.2 t ht)⟩
  | returned r =>
    exact ⟨fun t ht => hs.log _ (h.1 t ht), h.2.1.mono hs, h.2.2.mono hg hg' hs (hm r rfl)⟩

theorem Local.mono (hg : Shared g) (hg' : Shared g') (hs : Spares g g' m) (h : Local g m) :
    Local g' m := by
  cases m with
  | announcing id =>
    exact ⟨Nat.le_trans h.1 hs.next, fun hopened => h.2.1 (hs.opened id rfl hopened),
      hs.registered id rfl h.2.2⟩
  | reading id | receiving id | unmatching id => exact hs.log _ h
  | bindingMain id | listing id | trying id => exact Sorting.mono rfl hs h
  | checking id n key frame | binding id n key frame =>
    exact ⟨h.1.mono rfl hs, h.2.1, (hs.key n rfl).trans h.2.2⟩
  | inserting id n key =>
    obtain ⟨hopened, hkey, frame, hbound⟩ := h
    exact ⟨hs.log _ hopened, (hs.key n rfl).trans hkey, frame, hs.log _ hbound⟩
  | confirming id n | withdrawing id n | handing id n =>
    exact ⟨hs.log _ h.1, bound_of_log hs.log h.2⟩
  | closing id rest after | removing id rest after | unbinding id rest after
  | unlisting id n rest after =>
    refine Closing.mono hg hg' hs ?_ h
    rintro r rfl
    rfl
  | releasing n => exact hs.dead n h
  | sending w id | writing w id =>
    cases w with
    | none => trivial
    | some n => exact bound_of_log hs.log h
  | dropping id => trivial
  | returned r => exact ⟨h.1.mono hs, h.2.mono hg hg' hs rfl⟩

theorem Spares.of_same_log (hlog : g'.log = g.log) (hnext : g.next ≤ g'.next)
    (hconns : ∀ id, m = .announcing id → id ∈ g.conns → id ∈ g'.conns)
    (hkey : ∀ n, g'.key n = g.key n) (hdead : ∀ n, g.Dead n → g'.Dead n)
    (hmain : ∀ id, m.reads = some id → g'.isMainBound id → g.isMainBound id)
    (hcovers : ∀ r n id, m.revokes = some r → g'.Revoked r n id → id ∈ g'.ifaces n →
      id ∈ g'.conns → id ∈ g.ifaces n ∧ id ∈ g.conns) : Spares g g' m where
  log := by
    rw [hlog]
    exact fun _ => id
  next := hnext
  registered := hconns
  opened := by
    rw [hlog]
    exact fun _ _ => id
  unbound := by
    simp only [Store.Bound, hlog]
    exact fun _ _ _ => id
  notMain := hmain
  key := fun n _ => hkey n
  rekeyed := fun n key hn => ⟨key, (hkey n).trans hn, Nat.le_refl _⟩
  dead := hdead
  covers := hcovers

theorem Spares.noted (hopened : ∀ id, m.reads = some id → e ≠ .opened id)
    (hbound : ∀ id n key frame, m.reads = some id → e ≠ .bound id n key frame) :
    Spares g (g.note e) m where
  log := fun x hx => mem_note.2 (.inl hx)
  next := Nat.le_refl _
  registered := fun _ _ => id
  opened := fun id hm hmem =>
    (mem_note.1 hmem).resolve_right fun heq => hopened id hm heq.symm
  unbound := by
    rintro id n hm ⟨key, frame, hmem⟩
    exact ⟨key, frame, (mem_note.1 hmem).resolve_right fun heq =>
      hbound id n key frame hm heq.symm⟩
  notMain := fun _ _ => id
  key := fun _ _ => rfl
  rekeyed := fun _ key hn => ⟨key, hn, Nat.le_refl _⟩
  dead := fun _ => id
  covers := fun _ _ _ _ _ hlisted hconn => ⟨hlisted, hconn⟩

theorem Spares.bound {b : Option Binding} (h : m.reads = some id → b = none) :
    Spares g (g.bind id b) m := by
  refine Spares.of_same_log rfl (Nat.le_refl _) (fun _ _ hc => hc) (fun _ => rfl) (fun _ hn => hn)
    ?_ fun _ _ _ _ _ hlisted hconn => ⟨hlisted, hconn⟩
  intro c hc hmain
  by_cases hcid : c = id
  · subst hcid
    unfold Store.isMainBound at hmain
    rw [bindings_bind_self, h hc] at hmain
    cases hmain
  · unfold Store.isMainBound at hmain ⊢
    rwa [bindings_bind_ne hcid] at hmain

theorem Spares.trans {g'' : Store} (hg' : Shared g') (hg'' : Shared g'') (h : Spares g g' m)
    (h' : Spares g' g'' m) : Spares g g'' m where
  log := fun e he => h'.log e (h.log e he)
  next := Nat.le_trans h.next h'.next
  registered := fun id hm hc => h'.registered id hm (h.registered id hm hc)
  opened := fun id hm hmem => h.opened id hm (h'.opened id hm hmem)
  unbound := fun id n hm hb => h.unbound id n hm (h'.unbound id n hm hb)
  notMain := fun id hm hmain => h.notMain id hm (h'.notMain id hm hmain)
  key := fun n hm => (h'.key n hm).trans (h.key n hm)
  rekeyed := by
    intro n key hn
    obtain ⟨now, hnow, hle⟩ := h.rekeyed n key hn
    obtain ⟨later, hlater, hle'⟩ := h'.rekeyed n now hnow
    exact ⟨later, hlater, Nat.le_trans hle hle'⟩
  dead := fun n hn => h'.dead n (h.dead n hn)
  covers := by
    intro r n id hm hrevoked hlisted hconn
    obtain ⟨hlisted', hconn'⟩ := h'.covers r n id hm hrevoked hlisted hconn
    exact h.covers r n id hm (revoked_before hg' hg'' h'.log hlisted' hrevoked) hlisted' hconn'

end MeshsatHub.Rnsnode
