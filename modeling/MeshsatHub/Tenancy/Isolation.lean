import MeshsatHub.Foundations.TwoRuns
import MeshsatHub.Tenancy.Ingest

/-!
# Isolation of the tenants' records

What one tenant's bridges publish can show in another tenant's records: the owner of record of an
identifier inside the payload overrides the namespace the broker authenticated, and the primary keys
do not include the tenant.
-/

namespace MeshsatHub.Tenancy
open Strings Topics TwoRuns List Function Option
variable {P : Type}

/-- Every replica's cache answers as the registry does. -/
def Hub.Agrees (h : Hub) (reg : Registry) : Prop :=
  ∀ n, (h.resolvers n).Agrees reg ∧ (h.resolvers n).defTenant = defaultTenant

def Delivery.tenant? (d : Delivery P) (c : Consumers P) (reg : Registry) : Option String :=
  (d.job c).map fun job => reg.tenantOf defaultTenant job.device (extractTenantID d.topic)

def Delivery.slot? (d : Delivery P) (c : Consumers P) (reg : Registry) : Option Slot :=
  (d.job c).map fun job =>
    job.slot (reg.tenantOf defaultTenant job.device (extractTenantID d.topic))

/-- A device topic of the tenant's namespace. Its bridges may also publish to the consumers on the
bridge topic `{ns}/bridge/mo/decoded`, which `{ns}.*.mo.>` matches and this leaves out. -/
structure InNamespace (tenantID topic : String) : Prop where
  levels : ∃ rest, split '/' topic = namespaceLevels tenantID ++ rest
  device : (parseDeviceTopic topic).isSome = true

/-- A delivery that names nothing of anybody else: its device level is no
suffix word, and the identifier it is about is its sender's or nobody's. -/
structure OwnTraffic (c : Consumers P) (reg : Registry) (d : Delivery P) : Prop where
  level : shadowsTenant d.sender (innerLevels d.sender d.topic) = false
  owner : ∀ job, d.job c = some job →
    reg.deviceOwner job.device = none ∨ reg.deviceOwner job.device = some d.sender

structure Separated (c : Consumers P) (reg : Registry) (sender other : String)
    (run : List (Delivery P)) : Prop where
  own : ∀ d ∈ run, d.sender = sender → OwnTraffic c reg d
  keys : ∀ d ∈ run, d.sender = sender → ∀ e ∈ run, e.sender ≠ sender →
    e.tenant? c reg = some other → d.slot? c reg ≠ e.slot? c reg

variable {c : Consumers P} {reg : Registry} {h : Hub} {d : Delivery P} {topic : String} {job : Job}

theorem Delivery.tenant?_of_job (hjob : d.job c = some job) :
    d.tenant? c reg = some (reg.tenantOf defaultTenant job.device (extractTenantID d.topic)) := by
  rw [Delivery.tenant?, hjob, map_some]

theorem Delivery.slot?_of_job (hjob : d.job c = some job) : d.slot? c reg = some
      (job.slot (reg.tenantOf defaultTenant job.device (extractTenantID d.topic))) := by
  rw [Delivery.slot?, hjob, map_some]

theorem deliver_eq_act (hh : h.Agrees reg) (hjob : d.job c = some job) :
    ∃ h' : Hub, h'.Agrees reg ∧ h'.keys = h.keys ∧ h'.records = h.records ∧
      deliver c reg h d =
        job.act c (reg.tenantOf defaultTenant job.device (extractTenantID d.topic)) h' := by
  obtain ⟨hagrees, hdef⟩ := hh d.replica
  have htenant := forDeviceTopic_value hagrees d.now job.device (extractTenantID d.topic)
  rw [hdef] at htenant
  refine ⟨{ h with resolvers := update h.resolvers d.replica (forDeviceTopic
    (h.resolvers d.replica) (reg.env d.now) job.device (extractTenantID d.topic)).2 },
    ?_, rfl, rfl, ?_⟩
  · intro n
    by_cases hn : n = d.replica
    · subst hn
      simp only [update_self]
      exact ⟨forDeviceTopic_agrees hagrees _ _ _, by rw [forDeviceTopic_defTenant, hdef]⟩
    · simp only [update_of_ne hn]
      exact hh n
  · simp only [deliver, hjob, htenant]

theorem deliver_of_no_job (hjob : d.job c = none) : deliver c reg h d = h := by
  simp only [deliver, hjob]

section
variable (hh : h.Agrees reg)
include hh

theorem deliver_agrees : (deliver c reg h d).Agrees reg := by
  cases hjob : d.job c with
  | none => exact (deliver_of_no_job hjob) ▸ hh
  | some job =>
    obtain ⟨h', hh', _, _, heq⟩ := deliver_eq_act hh hjob
    intro n
    rw [heq, Job.act_resolvers]
    exact hh' n

theorem deliver_records : ∃ added, (deliver c reg h d).records = h.records ++ added ∧
      ∀ r ∈ added, d.tenant? c reg = some r.tenant := by
  cases hjob : d.job c with
  | none => exact ⟨[], by simp [deliver_of_no_job hjob], by simp⟩
  | some job =>
    obtain ⟨h', _, _, hrecords, heq⟩ := deliver_eq_act hh hjob
    obtain ⟨added, hadded, htenant⟩ := Job.act_records c
      (reg.tenantOf defaultTenant job.device (extractTenantID d.topic)) h' job
    refine ⟨added, by rw [heq, hadded, hrecords], ?_⟩
    intro r hr
    rw [Delivery.tenant?_of_job hjob, htenant r hr]

theorem deliver_recordsOf_of_ne {tenant : String} (hne : d.tenant? c reg ≠ some tenant) :
    (deliver c reg h d).recordsOf tenant = h.recordsOf tenant := by
  obtain ⟨added, hadded, htenant⟩ := deliver_records (c := c) (d := d) hh
  have hnone : added.filter (fun r => r.tenant = tenant) = [] := by
    rw [filter_eq_nil_iff]
    intro r hr heq
    apply hne
    rw [htenant r hr, of_decide_eq_true heq]
  rw [Hub.recordsOf_append hadded, hnone, append_nil]

theorem deliver_mem_keys {key : Slot} (hne : d.slot? c reg ≠ some key) :
    key ∈ (deliver c reg h d).keys ↔ key ∈ h.keys := by
  cases hjob : d.job c with
  | none => rw [deliver_of_no_job hjob]
  | some job =>
    obtain ⟨h', _, hkeys, _, heq⟩ := deliver_eq_act hh hjob
    rw [heq, Job.mem_keys_act, hkeys]
    intro hkey
    apply hne
    rw [Delivery.slot?_of_job hjob, hkey]

end

theorem InNamespace.of_mayPublish {tenantID bridgeID : String} (ht : TenantId tenantID)
    (hb : validBridgeID bridgeID) (hdots : Lacks '.' topic)
    (hpublish : mayPublish (topicNamespace tenantID) bridgeID topic)
    (hdevice : (parseDeviceTopic topic).isSome) : InNamespace tenantID topic := by
  simp only [mayPublish, Bool.and_eq_true] at hpublish
  obtain ⟨rest, hlevels, _⟩ := (publishAllowed_iff ht hdots hb).1 hpublish.1
  exact ⟨⟨rest, hlevels⟩, hdevice⟩

theorem InNamespace.extractTenantID_eq {tenantID : String} (ht : TenantId tenantID)
    (hd : tenantID ≠ defaultTenant) (h : InNamespace tenantID topic)
    (hlevel : shadowsTenant tenantID (innerLevels tenantID topic) = false) :
    extractTenantID topic = tenantID := by
  obtain ⟨rest, hlevels⟩ := h.levels
  obtain ⟨t, hparse⟩ := isSome_iff_exists.1 h.device
  have hinner : innerLevels tenantID topic = rest := by
    rw [innerLevels, hlevels, drop_left]
  rw [namespaceLevels, if_neg hd] at hlevels
  have htenant : t.tenant = tenantID := by
    apply (parseDeviceLevels_customer ht hd rest).2 (hinner ▸ hlevel) t
    rw [← hparse, parseDeviceTopic, hlevels]
    rfl
  rw [extractTenantID, hparse]
  exact htenant

theorem OwnTraffic.tenant?_eq (h : OwnTraffic c reg d) (ht : TenantId d.sender)
    (hd : d.sender ≠ defaultTenant) (hns : InNamespace d.sender d.topic) {tenant : String}
    (htenant : d.tenant? c reg = some tenant) :
    tenant = d.sender ∨ (d.sender ∉ reg.tenantRows ∧ tenant = defaultTenant) := by
  cases hjob : d.job c with
  | none => simp [Delivery.tenant?, hjob] at htenant
  | some job =>
    rw [Delivery.tenant?_of_job hjob, hns.extractTenantID_eq ht hd h.level, some.injEq] at htenant
    rw [← htenant, Registry.tenantOf]
    obtain howner | howner := h.owner job hjob
    · rw [howner, getD_none, Registry.home]
      by_cases hknown : d.sender ∈ reg.tenantRows
      · rw [if_pos ⟨ht.nonempty, hknown⟩]
        exact Or.inl rfl
      · rw [if_neg fun hand => hknown hand.2]
        exact Or.inr ⟨hknown, rfl⟩
    · rw [howner, getD_some]
      exact Or.inl rfl

variable {tenant : String}

/-- Two stores a tenant cannot tell apart: the same records of its own, and the
same of the keys its deliveries ask for. -/
structure Indistinguishable (reg : Registry) (tenant : String) (asked : Slot → Prop)
    (h₁ h₂ : Hub) : Prop where
  left : h₁.Agrees reg
  right : h₂.Agrees reg
  records : h₁.recordsOf tenant = h₂.recordsOf tenant
  keys : ∀ key, asked key → (key ∈ h₁.keys ↔ key ∈ h₂.keys)

variable {asked : Slot → Prop} {h₁ h₂ : Hub} {payload : P}

theorem Indistinguishable.deliver_left (h : Indistinguishable reg tenant asked h₁ h₂)
    (hne : d.tenant? c reg ≠ some tenant) (hslot : ∀ key, asked key → d.slot? c reg ≠ some key) :
    Indistinguishable reg tenant asked (deliver c reg h₁ d) h₂ where
  left := deliver_agrees h.left
  right := h.right
  records := by rw [deliver_recordsOf_of_ne h.left hne, h.records]
  keys := fun key hkey => (deliver_mem_keys h.left (hslot key hkey)).trans (h.keys key hkey)

/-- A delivery made in both stores keeps them indistinguishable, if it asks for
its key when it is the tenant's own, and no position of another tenant has a
key the tenant's deliveries ask for. -/
theorem Indistinguishable.deliver_both (h : Indistinguishable reg tenant asked h₁ h₂)
    (hown : d.tenant? c reg = some tenant → ∀ key, d.slot? c reg = some key → asked key)
    (hposition : d.tenant? c reg ≠ some tenant → ∀ id, d.slot? c reg = some (.position id) →
      ¬ asked (.position id)) :
    Indistinguishable reg tenant asked (deliver c reg h₁ d) (deliver c reg h₂ d) := by
  cases hjob : d.job c with
  | none =>
    rw [deliver_of_no_job hjob, deliver_of_no_job hjob]
    exact h
  | some job =>
    obtain ⟨g₁, _, hkeys₁, hrecords₁, heq₁⟩ := deliver_eq_act h.left hjob
    obtain ⟨g₂, _, hkeys₂, hrecords₂, heq₂⟩ := deliver_eq_act h.right hjob
    have htenant : d.tenant? c reg = _ := Delivery.tenant?_of_job hjob
    have hslot : d.slot? c reg = _ := Delivery.slot?_of_job hjob
    generalize reg.tenantOf defaultTenant job.device (extractTenantID d.topic) = acting at *
    by_cases hacting : acting = tenant
    · subst hacting
      have hkey : job.slot acting ∈ g₁.keys ↔ job.slot acting ∈ g₂.keys := by
        rw [hkeys₁, hkeys₂]
        exact h.keys _ (hown htenant _ hslot)
      have hrecords : g₁.recordsOf acting = g₂.recordsOf acting := by
        simp only [Hub.recordsOf, hrecords₁, hrecords₂]
        exact h.records
      obtain ⟨hsame, hsameKey⟩ := Job.act_congr c acting job hkey hrecords
      refine ⟨deliver_agrees h.left, deliver_agrees h.right, by rw [heq₁, heq₂, hsame], ?_⟩
      intro key hasked
      by_cases hself : job.slot acting = key
      · rw [heq₁, heq₂, ← hself]
        exact hsameKey
      · have hne : d.slot? c reg ≠ some key := fun heq => hself (some.inj (hslot ▸ heq))
        rw [deliver_mem_keys h.left hne, deliver_mem_keys h.right hne]
        exact h.keys key hasked
    · have hne : d.tenant? c reg ≠ some tenant := fun heq => hacting (some.inj (htenant ▸ heq))
      refine ⟨deliver_agrees h.left, deliver_agrees h.right, ?_, ?_⟩
      · rw [deliver_recordsOf_of_ne h.left hne, deliver_recordsOf_of_ne h.right hne, h.records]
      · intro key hasked
        by_cases hself : job.slot acting = key
        · -- both stores end up with the key: the one that lacked it has just taken it
          have hjobs : ∀ id device payload, job ≠ .position id device payload := by
            intro id device payload heq
            subst heq
            rw [← hself] at hasked
            exact hposition hne id hslot hasked
          rw [heq₁, heq₂, ← hself]
          exact iff_of_true (Job.slot_mem_keys_act c acting g₁ job hjobs)
            (Job.slot_mem_keys_act c acting g₂ job hjobs)
        · have hkeyNe : d.slot? c reg ≠ some key := fun heq => hself (some.inj (hslot ▸ heq))
          rw [deliver_mem_keys h.left hkeyNe, deliver_mem_keys h.right hkeyNe]
          exact h.keys key hasked

theorem sosJob_ne_position (h : sosJob c topic payload = some job) (id device : String)
    (msg : PositionPayload) : job ≠ .position id device msg := by
  simp only [sosJob, bind_eq_bind, bind_eq_some_iff] at h
  obtain ⟨m, _, h⟩ := h
  generalize (if m.imei = "" then extractDeviceID topic else m.imei) = imei at h
  split at h
  · exact absurd h (by simp)
  · obtain ⟨_, _, h⟩ := bind_eq_some_iff.1 h
    simp only [some.injEq] at h
    rw [← h]
    simp

theorem messageJob_ne_position (h : messageJob c topic payload = some job) (id device : String)
    (msg : PositionPayload) : job ≠ .position id device msg := by
  unfold messageJob at h
  split at h
  · exact absurd h (by simp)
  · obtain ⟨m, _, hm⟩ := map_eq_some_iff.1 h
    rw [← hm]
    simp

namespace Delivery

theorem of_position_slot {id : String} (h : d.slot? c reg = some (.position id)) :
    id = fallbackPositionID c d.topic d.payload ∧
      d.tenant? c reg = some (reg.tenantOf defaultTenant (extractDeviceID d.topic)
        (extractTenantID d.topic)) := by
  cases hjob : d.job c with
  | none => simp [slot?, hjob] at h
  | some job =>
    rw [slot?_of_job hjob, some.injEq] at h
    obtain ⟨device, payload, rfl⟩ : ∃ device payload, job = .position id device payload := by
      cases job with
      | sos msgID event | message row => simp [Job.slot] at h
      | position id' device payload =>
        simp only [Job.slot, Slot.position.injEq] at h
        exact ⟨device, payload, by rw [h]⟩
    rw [tenant?_of_job hjob]
    simp only [job, Consumer.job] at hjob
    split at hjob
    · cases hconsumer : d.consumer with rw [hconsumer] at hjob
      | sos => exact absurd rfl (sosJob_ne_position hjob _ _ _)
      | message => exact absurd rfl (messageJob_ne_position hjob _ _ _)
      | position =>
        simp only [positionJob] at hjob
        split at hjob
        · exact absurd hjob (by simp)
        · obtain ⟨m, _, hm⟩ := map_eq_some_iff.1 hjob
          simp only [Job.position.injEq] at hm
          exact ⟨hm.1.symm, by rw [Job.device, ← hm.2.1]⟩
    · exact absurd hjob (by simp)

theorem tenant?_eq_of_position {d₁ d₂ : Delivery P} {id : String}
    (hdigest : c.messageDigest d₁.topic d₁.payload = c.messageDigest d₂.topic d₂.payload →
      d₁.topic = d₂.topic)
    (h₁ : d₁.slot? c reg = some (.position id)) (h₂ : d₂.slot? c reg = some (.position id)) :
    d₁.tenant? c reg = d₂.tenant? c reg := by
  obtain ⟨hid₁, htenant₁⟩ := of_position_slot h₁
  obtain ⟨hid₂, htenant₂⟩ := of_position_slot h₂
  have happend : "pos-" ++ c.messageDigest d₁.topic d₁.payload =
      "pos-" ++ c.messageDigest d₂.topic d₂.payload := hid₁.symm.trans hid₂
  have htopic := hdigest (by simpa using happend)
  rw [htenant₁, htenant₂, htopic]

end Delivery

theorem deliverAll_agrees (hh : h.Agrees reg) (run : List (Delivery P)) :
    (deliverAll c reg h run).Agrees reg := by
  induction run generalizing h with
  | nil => exact hh
  | cons d rest ih => exact ih (deliver_agrees hh)

theorem deliverAll_recordsOf_others {A B : String} (hA : TenantId A) (hAd : A ≠ defaultTenant)
    (hBd : B ≠ defaultTenant) (hAB : A ≠ B) (hh : h.Agrees reg) {run : List (Delivery P)}
    (hns : ∀ d ∈ run, d.sender = A → InNamespace A d.topic)
    (hdigest : ∀ d ∈ run, ∀ e ∈ run, d.sender ≠ A → e.sender ≠ A →
      c.messageDigest d.topic d.payload = c.messageDigest e.topic e.payload → d.topic = e.topic)
    (hsep : Separated c reg A B run) :
    (deliverAll c reg h run).recordsOf B =
      (deliverAll c reg h (run.filter fun d => !decide (d.sender = A))).recordsOf B := by
  let asked : Slot → Prop := fun key =>
    ∃ d ∈ run, d.sender ≠ A ∧ d.tenant? c reg = some B ∧ d.slot? c reg = some key
  have hrelated : Indistinguishable reg B asked h h := ⟨hh, hh, rfl, fun _ _ => Iff.rfl⟩
  refine (foldl_related_filter run ?_ ?_ hrelated).records
  · intro d hd hhidden s t hst
    have hsender : d.sender = A := of_decide_eq_true hhidden
    subst hsender
    apply hst.deliver_left
    · intro htenant
      have hown := (hsep.own d hd rfl).tenant?_eq hA hAd (hns d hd rfl) htenant
      obtain hB | ⟨_, hB⟩ := hown
      · exact hAB hB.symm
      · exact hBd hB
    · intro key ⟨e, he, hsender, htenant, hslot⟩ hkey
      exact hsep.keys d hd rfl e he hsender htenant (hkey.trans hslot.symm)
  · intro d hd hshown s t hst
    have hsender : d.sender ≠ A := of_decide_eq_false hshown
    apply hst.deliver_both
    · intro htenant key hkey
      exact ⟨d, hd, hsender, htenant, hkey⟩
    · intro htenant id hslot ⟨e, he, hesender, hetenant, heslot⟩
      apply htenant
      rw [← hetenant]
      exact Delivery.tenant?_eq_of_position (hdigest d hd e he hsender hesender) hslot heslot

/-- In runs that are separated, what a customer's bridges publish is recorded
under that customer (or the default tenant, when the customer is unknown), and
another customer's records do not depend on it. The digests of the other
senders' messages are assumed to tell their topics apart. -/
theorem deliverAll_isolated {A B : String} (hA : TenantId A) (hAd : A ≠ defaultTenant)
    (hBd : B ≠ defaultTenant) (hAB : A ≠ B) (hh : h.Agrees reg) {run₁ run₂ : List (Delivery P)}
    (hothers : (run₁.filter fun d => !decide (d.sender = A)) =
      run₂.filter fun d => !decide (d.sender = A))
    (hns₁ : ∀ d ∈ run₁, d.sender = A → InNamespace A d.topic)
    (hns₂ : ∀ d ∈ run₂, d.sender = A → InNamespace A d.topic)
    (hdigest : ∀ d ∈ run₁, ∀ e ∈ run₁, d.sender ≠ A → e.sender ≠ A →
      c.messageDigest d.topic d.payload = c.messageDigest e.topic e.payload → d.topic = e.topic)
    (hsep₁ : Separated c reg A B run₁) (hsep₂ : Separated c reg A B run₂) :
    (∀ before d after, run₁ = before ++ d :: after → d.sender = A →
      ∃ added, (deliver c reg (deliverAll c reg h before) d).records =
          (deliverAll c reg h before).records ++ added ∧
        ∀ r ∈ added, r.tenant = A ∨ (A ∉ reg.tenantRows ∧ r.tenant = defaultTenant)) ∧
      (deliverAll c reg h run₁).recordsOf B = (deliverAll c reg h run₂).recordsOf B := by
  constructor
  · intro before d after hrun hsender
    have hd : d ∈ run₁ := by simp [hrun]
    obtain ⟨added, hadded, htenant⟩ := deliver_records (d := d)
      (deliverAll_agrees (c := c) hh before)
    refine ⟨added, hadded, ?_⟩
    intro r hr
    subst hsender
    exact (hsep₁.own d hd rfl).tenant?_eq hA hAd (hns₁ d hd rfl) (htenant r hr)
  · have hmem : ∀ d, d.sender ≠ A → (d ∈ run₂ → d ∈ run₁) := by
      intro d hd hmem
      have hfilter : d ∈ run₂.filter fun d => !decide (d.sender = A) := by simp [hmem, hd]
      rw [← hothers] at hfilter
      exact (mem_filter.1 hfilter).1
    have hdigest₂ : ∀ d ∈ run₂, ∀ e ∈ run₂, d.sender ≠ A → e.sender ≠ A →
        c.messageDigest d.topic d.payload = c.messageDigest e.topic e.payload →
        d.topic = e.topic :=
      fun d hd e he hds hes => hdigest d (hmem d hds hd) e (hmem e hes he) hds hes
    rw [deliverAll_recordsOf_others hA hAd hBd hAB hh hns₁ hdigest hsep₁, hothers,
      ← deliverAll_recordsOf_others hA hAd hBd hAB hh hns₂ hdigest₂ hsep₂]

def sosOnly : Consumers MODecodedMsg where
  decodeSOS := some
  decodeMessage := fun _ => none
  decodePosition := fun _ => none
  decodeGPS := fun _ _ => none
  toUpper := id
  messageDigest := fun topic _ => topic
  engine := true
  chainID := ""
  listEscalationChains := fun _ => ["night-watch"]

def emptyHub : Hub where
  resolvers := fun _ => newResolver defaultTenant 60
  keys := []
  records := []

def twoCustomers : Registry where
  deviceRows := fun id => if id = "300434061" then ["t_b"] else []
  bridgeRows := fun _ => []
  tenantRows := ["t_a", "t_b"]

def sosDelivery (sender topic imei : String) : Delivery MODecodedMsg :=
  ⟨sender, 0, 0, .sos, topic, ⟨"m1", imei, "SOS", none⟩⟩

theorem emptyHub_agrees (reg : Registry) : emptyHub.Agrees reg :=
  fun _ => ⟨newResolver_agrees reg defaultTenant 60, rfl⟩

theorem deliverAll_isolated_own_sos : (deliverAll sosOnly twoCustomers emptyHub
        [sosDelivery "t_a" "meshsat/t_a/x1/mo/decoded" "x1",
          sosDelivery "t_b" "meshsat/t_b/300434061/mo/decoded" ""]).recordsOf "t_b" =
      (deliverAll sosOnly twoCustomers emptyHub
        [sosDelivery "t_b" "meshsat/t_b/300434061/mo/decoded" ""]).recordsOf "t_b" := by
  have hns : InNamespace "t_a" "meshsat/t_a/x1/mo/decoded" :=
    ⟨⟨["x1", "mo", "decoded"], by decide +kernel⟩, by decide +kernel⟩
  have hown : OwnTraffic sosOnly twoCustomers
      (sosDelivery "t_a" "meshsat/t_a/x1/mo/decoded" "x1") := by
    refine ⟨by decide +kernel, ?_⟩
    intro job hjob
    have hdevice : (Delivery.job (sosDelivery "t_a" "meshsat/t_a/x1/mo/decoded" "x1")
        sosOnly).map Job.device = some "x1" := by decide +kernel
    rw [hjob, map_some, some.injEq] at hdevice
    rw [hdevice]
    decide +kernel
  refine (deliverAll_isolated (A := "t_a") (by decide) (by decide) (by decide) (by decide)
    (emptyHub_agrees twoCustomers) (by decide) ?_ ?_ (by decide +kernel) ⟨?_, by decide +kernel⟩
    ⟨?_, by decide +kernel⟩).2
  · simpa [sosDelivery] using hns
  · simp [sosDelivery]
  · simpa [sosDelivery] using hown
  · simp [sosDelivery]

/-- A bridge of one customer names the modem of another in its payload: the
other customer gets the event and the alert. -/
theorem foreign_imei_raises_alert :
    mayPublish (topicNamespace "t_a") "b1" "meshsat/t_a/x1/mo/decoded" = true ∧
      InNamespace "t_a" "meshsat/t_a/x1/mo/decoded" ∧
      (deliverAll sosOnly twoCustomers emptyHub []).recordsOf "t_b" = [] ∧
      (deliverAll sosOnly twoCustomers emptyHub
        [sosDelivery "t_a" "meshsat/t_a/x1/mo/decoded" "300434061"]).recordsOf "t_b" =
        [.sosEvent "t_b" "meshsat/t_b/300434061/sos" ⟨"300434061", "SOS", "SOS", "keyword"⟩,
          .alert "t_b" ⟨"night-watch", "300434061", "sos", "SOS"⟩] := by
  have hbridge : validBridgeID "b1" := by decide +kernel
  refine ⟨by decide +kernel, ?_, by decide +kernel, by decide +kernel⟩
  exact InNamespace.of_mayPublish (by decide) hbridge (by decide +kernel) (by decide +kernel)
    (by decide +kernel)

end MeshsatHub.Tenancy
