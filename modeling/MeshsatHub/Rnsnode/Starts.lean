import MeshsatHub.Rnsnode.Steps

/-!
# The first steps of calls keep the tables in order

A call begins with a locked step of its own, which keeps what holds of the tables and of the calls
that are under way.
-/

namespace MeshsatHub.Rnsnode
open Interleaving List Function Option

structure Begun (g : Store) (clear : Call → Prop) (g' : Store) (l : Call) : Prop where
  shared : Shared g'
  call : Local g' l
  others : ∀ m, clear m → Local g m → Local g' m ∧ Between m l
  unbinding : ∀ id, OwesUnbinding g' id → OwesUnbinding g id
  unlisting : ∀ q, OwesUnlisting g' q → OwesUnlisting g q
  listed : ∀ n id, id ∈ g'.ifaces n → id ∈ g.ifaces n
  working : l.worksOn = none
  log : ∀ e ∈ g.log, e ∈ g'.log

variable {g g' : Store} {l : Call} {clear : Call → Prop} {n : Nat} {tenant : String}

theorem between_of_aside (hreads : l.reads = none) (henters : l.enters = none)
    (hrevokes : ∀ n, l.revokes ≠ some (.released n)) (m : Call) : Between m l where
  readers := fun id _ hl => by
    rw [hreads] at hl
    cases hl
  left := fun n _ hl => by
    rw [henters] at hl
    cases hl
  right := fun n hl => absurd hl (hrevokes n)

section
variable (hg : Shared g)
include hg

theorem Begun.pass (hl : Local g l) (hreads : l.reads = none)
    (henters : l.enters = none) (hrevokes : ∀ n, l.revokes ≠ some (.released n))
    (hworking : l.worksOn = none) : Begun g clear g l where
  shared := hg
  call := hl
  others := fun m _ hm => ⟨hm, between_of_aside hreads henters hrevokes m⟩
  unbinding := fun _ h => h
  unlisting := fun _ h => h
  listed := fun _ _ h => h
  working := hworking
  log := fun _ he => he

theorem accept_begun : Begun g clear { g with next := g.next + 1, conns := g.conns ++ [g.next + 1] }
      (.announcing (g.next + 1)) := by
  have hg' : Shared { g with next := g.next + 1, conns := g.conns ++ [g.next + 1] } :=
    { hg with opened_le := fun id hid => Nat.le_succ_of_le (hg.opened_le id hid) }
  have hfresh : .opened (g.next + 1) ∉ g.log := by
    intro hmem
    have hle := hg.opened_le _ hmem
    omega
  have hconns {c : Nat} (hc : c ∈ g.conns ++ [g.next + 1]) (hopened : .opened c ∈ g.log) :
      c ∈ g.conns := by
    rw [mem_append, mem_singleton] at hc
    exact hc.resolve_right fun heq => hfresh (heq ▸ hopened)
  refine ⟨hg', ⟨Nat.le_refl _, hfresh, by simp⟩, ?_, ?_, fun _ h => h, fun _ _ h => h, rfl,
    fun _ he => he⟩
  · intro m _ hm
    refine ⟨hm.mono hg hg' (Spares.of_same_log rfl (Nat.le_succ _)
      (fun _ _ hc => mem_append_left _ hc) (fun _ => rfl) (fun _ hdead => hdead)
      (fun _ _ hmain => hmain) ?_), ?_, fun _ _ => nofun, nofun⟩
    · intro r k c _ _ hlisted hc
      exact ⟨hlisted, hconns hc (hg.opened_of_bound c k (hg.bound_of_listed k c hlisted))⟩
    · intro id hid heq
      cases heq
      have hle := le_next_of_reads hg hid hm
      omega
  · rintro c ⟨hbinding, hgone⟩
    exact ⟨hbinding, fun hc => hgone (mem_append_left _ hc)⟩

omit hg in
theorem getElem?_append_map {A B : Type*} {xs : List A} {a : A} {i : Nat} {b : B} (p : A → B)
    (h : xs[i]?.map p = some b) : (xs ++ [a])[i]?.map p = some b := by
  obtain ⟨x, hx, rfl⟩ := map_eq_some_iff.1 h
  obtain ⟨hlt, -⟩ := List.getElem?_eq_some_iff.1 hx
  rw [getElem?_append_left hlt, hx]
  rfl

theorem create_begun {code : Code} : let made : Store := { g with
      nodes := g.nodes ++ [⟨tenant, ⟨code, 0⟩, []⟩]
      privates := update g.privates tenant (some g.nodes.length)
      log := g.log ++ [.keyed tenant g.nodes.length ⟨code, 0⟩] }
    Begun g clear made (.returned .served) := by
  intro made
  have hnodes : made.nodes = g.nodes ++ [⟨tenant, ⟨code, 0⟩, []⟩] := rfl
  have hnoted : Shared (g.note (.keyed tenant g.nodes.length ⟨code, 0⟩)) :=
    hg.noted nofun nofun fun _ _ heq => heq.elim nofun nofun
  have htenant {k : Nat} {t : String} (ht : g.tenant k = some t) : made.tenant k = some t :=
    getElem?_append_map _ ht
  have hkey {k : Nat} {key : Key} (hk : g.key k = some key) : made.key k = some key :=
    getElem?_append_map _ hk
  have hifaces (k c : Nat) (hc : c ∈ made.ifaces k) : c ∈ g.ifaces k := by
    unfold Store.ifaces at hc ⊢
    by_cases hlt : k < g.nodes.length
    · rwa [hnodes, getElem?_append_left hlt] at hc
    · rw [hnodes, getElem?_append_right (Nat.le_of_not_lt hlt), getElem?_singleton] at hc
      split at hc <;> cases hc
  have hprivates {t : String} {k : Nat} (hk : made.privates t = some k) :
      t = tenant ∧ k = g.nodes.length ∨ g.privates t = some k := by
    have hk' : update g.privates tenant (some g.nodes.length) t = some k := hk
    by_cases ht : t = tenant
    · subst ht
      rw [update_self, some.injEq] at hk'
      exact .inl ⟨rfl, hk'.symm⟩
    · rw [update_of_ne ht] at hk'
      exact .inr hk'
  have hg' : Shared made := by
    refine { hnoted with
      bound_of_listed := fun k c hc => hnoted.bound_of_listed k c (hifaces k c hc)
      keyed_of_bound := ?_, keyed_of_key := ?_, tenant_of_private := ?_ }
    · intro c k key frame hb
      obtain ⟨hopens, t, ht, hkeyed⟩ := hnoted.keyed_of_bound c k key frame hb
      exact ⟨hopens, t, htenant ht, hkeyed⟩
    · intro k t key ht hk
      by_cases hlt : k < g.nodes.length
      · apply hnoted.keyed_of_key k t key
        · unfold Store.tenant at ht
          rwa [hnodes, getElem?_append_left hlt] at ht
        · unfold Store.key at hk
          rwa [hnodes, getElem?_append_left hlt] at hk
      · unfold Store.tenant at ht
        unfold Store.key at hk
        rw [hnodes, getElem?_append_right (Nat.le_of_not_lt hlt), getElem?_singleton] at ht hk
        split at ht
        case isTrue heq =>
          rw [if_pos heq] at hk
          cases ht
          cases hk
          have hk' : k = g.nodes.length := by omega
          subst hk'
          exact mem_note.2 (.inr rfl)
        · cases ht
    · intro t k hk
      obtain ⟨rfl, rfl⟩ | hk := hprivates hk
      · unfold Store.tenant
        rw [hnodes, getElem?_concat_length]
        rfl
      · exact htenant (hg.tenant_of_private t k hk)
  refine ⟨hg', ⟨trivial, nofun⟩, ?_, fun _ h => h, ?_, hifaces, rfl,
    fun _ he => mem_append_left _ he⟩
  · intro m _ hm
    have hquiet : Spares g (g.note (.keyed tenant g.nodes.length ⟨code, 0⟩)) m :=
      Spares.noted (fun _ _ => nofun) fun _ _ _ _ _ => nofun
    refine ⟨hm.mono hg hg' { hquiet with key := ?_, rekeyed := ?_, dead := ?_, covers := ?_ },
      between_of_aside (l := .returned .served) rfl rfl nofun m⟩
    · intro k hk
      obtain ⟨key, hkey'⟩ : ∃ key, g.key k = some key := by
        cases m with cases hk
        | checking c k' key frame | binding c k' key frame => exact ⟨key, hm.2.2⟩
        | inserting c k' key => exact ⟨key, hm.2.1⟩
      rw [hkey', hkey hkey']
    · exact fun k key hk => ⟨key, hkey hk, Nat.le_refl _⟩
    · intro k hdead
      refine ⟨?_, fun t ht => ?_⟩
      · rw [hnodes, length_append]
        exact Nat.lt_add_right _ hdead.1
      · obtain ⟨-, rfl⟩ | ht := hprivates ht
        · exact Nat.lt_irrefl _ hdead.1
        · exact hdead.2 t ht
    · exact fun r k c _ _ hlisted hc => ⟨hifaces k c hlisted, hc⟩
  · rintro ⟨c, k⟩ ⟨hlisted, hnone⟩
    exact ⟨hifaces k c hlisted, hnone⟩

theorem change_begun {new old : Key} {order : List Nat}
    (hprivate : g.privates tenant = some n) (hold : g.key n = some old)
    (hmade : old.made ≤ new.made) (hclear : ∀ m, clear m → m.classifies ≠ some n)
    (horder : order.isPerm (g.ifaces n)) :
    Begun g clear ((g.rekey n new).note (.keyed tenant n new))
      (closePublic order (.returned (.changed n new))) := by
  have hmem (c : Nat) : c ∈ order ↔ c ∈ g.ifaces n := (isPerm_iff.1 horder).mem_iff
  have hnoted : Shared (g.note (.keyed tenant n new)) :=
    hg.noted nofun nofun fun _ _ heq => heq.elim nofun nofun
  have hself : (g.rekey n new).key n = some new := by
    rw [key_rekey, if_pos rfl, hold]
    rfl
  have hg' : Shared ((g.rekey n new).note (.keyed tenant n new)) := by
    refine { hnoted with
      bound_of_listed := ?_, keyed_of_bound := ?_, keyed_of_key := ?_, tenant_of_private := ?_ }
    · intro k c hc
      rw [ifaces_note, ifaces_rekey] at hc
      exact hnoted.bound_of_listed k c hc
    · intro c k key frame hb
      obtain ⟨hopens, t, ht, hkeyed⟩ := hnoted.keyed_of_bound c k key frame hb
      exact ⟨hopens, t, tenant_rekey.trans ht, hkeyed⟩
    · intro k t key ht hk
      have ht' : g.tenant k = some t := tenant_rekey.symm.trans ht
      by_cases hn : n = k
      · subst hn
        have htn := hg.tenant_of_private tenant n hprivate
        rw [ht', some.injEq] at htn
        have hkey := hself.symm.trans hk
        rw [some.injEq] at hkey
        subst htn
        exact mem_note.2 (.inr (hkey ▸ rfl))
      · have hk' : (g.rekey n new).key k = some key := hk
        rw [key_rekey, if_neg hn] at hk'
        exact hnoted.keyed_of_key k t key ht' hk'
    · exact fun t k hk => tenant_rekey.trans (hg.tenant_of_private t k hk)
  refine ⟨hg', local_closePublic ⟨?_, ⟨_, hself, Nat.le_refl _⟩, ?_⟩, ?_, fun _ h => h, ?_, ?_,
    worksOn_closePublic, fun _ he => mem_note.2 (.inl he)⟩
  · intro c hc
    exact mem_note.2 (.inl (hg.opened_of_bound c n (hg.bound_of_listed n c ((hmem c).1 hc))))
  · rintro k c ⟨rfl, -⟩ hlisted _
    rw [ifaces_note, ifaces_rekey] at hlisted
    exact (hmem c).2 hlisted
  · intro m hm hlocal
    have hquiet : Spares g (g.note (.keyed tenant n new)) m :=
      Spares.noted (fun _ _ => nofun) fun _ _ _ _ _ => nofun
    refine ⟨hlocal.mono hg hg' { hquiet with key := ?_, rekeyed := ?_, dead := ?_, covers := ?_ },
      between_of_aside reads_closePublic enters_closePublic ?_ m⟩
    · intro k hk
      have hn : n ≠ k := by
        rintro rfl
        exact hclear m hm hk
      exact key_rekey.trans (if_neg hn)
    · intro k key hk
      by_cases hn : n = k
      · subst hn
        rw [hold, some.injEq] at hk
        exact ⟨_, hself, hk ▸ hmade⟩
      · exact ⟨key, (key_rekey.trans (if_neg hn)).trans hk, Nat.le_refl _⟩
    · intro k hdead
      refine ⟨?_, hdead.2⟩
      rw [show ((g.rekey n new).note (.keyed tenant n new)).nodes.length = g.nodes.length from
        length_modify ..]
      exact hdead.1
    · intro r k c _ _ hlisted hc
      rw [ifaces_note, ifaces_rekey] at hlisted
      exact ⟨hlisted, hc⟩
    · intro k hk
      rw [revokes_closePublic] at hk
      cases hk
  · rintro q ⟨hlisted, hnone⟩
    rw [ifaces_note, ifaces_rekey] at hlisted
    exact ⟨hlisted, hnone⟩
  · intro k c hc
    rwa [ifaces_note, ifaces_rekey] at hc

theorem release_begun (hprivate : g.privates tenant = some n) :
    Begun g clear { g with privates := update g.privates tenant none } (.releasing n) := by
  have hprivates {t : String} {k : Nat} (hk : update g.privates tenant none t = some k) :
      t ≠ tenant ∧ g.privates t = some k := by
    by_cases ht : t = tenant
    · subst ht
      rw [update_self] at hk
      cases hk
    · rw [update_of_ne ht] at hk
      exact ⟨ht, hk⟩
  have htenant := hg.tenant_of_private tenant n hprivate
  have hg' : Shared { g with privates := update g.privates tenant none } :=
    { hg with tenant_of_private := fun t k hk => hg.tenant_of_private t k (hprivates hk).2 }
  refine ⟨hg', ⟨?_, fun t ht => ?_⟩, ?_, fun _ h => h, fun _ h => h, fun _ _ h => h, rfl,
    fun _ he => he⟩
  · obtain ⟨node, hnode, -⟩ := map_eq_some_iff.1 htenant
    exact (List.getElem?_eq_some_iff.1 hnode).1
  · -- Another tenant's node is another node.
    obtain ⟨hne, hk⟩ := hprivates ht
    have ht' := hg.tenant_of_private t n hk
    rw [htenant, some.injEq] at ht'
    exact hne ht'.symm
  · intro m _ hm
    refine ⟨hm.mono hg hg' (Spares.of_same_log rfl (Nat.le_refl _) (fun _ _ hc => hc)
      (fun _ => rfl) ?_ (fun _ _ hmain => hmain)
      fun _ _ _ _ _ hlisted hc => ⟨hlisted, hc⟩),
      between_of_aside (l := .releasing n) rfl rfl nofun m⟩
    exact fun k hdead => ⟨hdead.1, fun t ht => hdead.2 t (hprivates ht).2⟩

theorem start_begun {cfg : Config} {request : Request}
    (hclear : ∀ m tenant code order n, clear m → request = .privateNode tenant code order →
      g.privates tenant = some n → (g.key n).map Key.code ≠ some code → m.classifies ≠ some n)
    (h : start cfg g request = some (g', l)) : Begun g clear g' l := by
  revert h
  fun_cases start cfg g request with
  | case1 =>
    rintro ⟨⟩
    exact accept_begun hg
  | case4 tenant code order =>
    fun_cases privateNode g tenant code order with
    | case1 hprivate key =>
      intro h
      cases h
      exact create_begun hg
    | case3 =>
      rintro ⟨⟩
      exact Begun.pass hg ⟨trivial, nofun⟩ rfl rfl nofun rfl
    | case4 n hprivate old hold hne horder key =>
      intro h
      cases h
      refine change_begun hg hprivate hold (Nat.le_succ _) (fun m hm => ?_) horder
      apply hclear m tenant code order n hm rfl hprivate
      rw [hold, map_some, ne_eq, some.injEq]
      exact hne
    | case2 | case5 => rintro ⟨⟩
  | case6 tenant n hprivate =>
    rintro ⟨⟩
    exact release_begun hg hprivate
  | case7 n id hlisted =>
    rintro ⟨⟩
    exact Begun.pass hg (hg.bound_of_listed n id hlisted) rfl rfl nofun rfl
  | case9 =>
    rintro ⟨⟩
    exact Begun.pass hg trivial rfl rfl nofun rfl
  | case11 stale hstale =>
    rintro ⟨⟩
    refine Begun.pass hg (local_closePublic ⟨?_, trivial, nofun⟩) reads_closePublic
      enters_closePublic ?_ worksOn_closePublic
    · intro id hid
      have hunclassified := all_eq_true.1 hstale id hid
      unfold Store.unclassified at hunclassified
      split at hunclassified
      case h_1 b hb => exact hg.opened_of_binding id b hb
      · cases hunclassified
    · intro n hn
      rw [revokes_closePublic] at hn
      cases hn
  | case2 | case3 | case5 | case8 | case10 | case12 => rintro ⟨⟩

end

end MeshsatHub.Rnsnode
