import MeshsatHub.Tenancy.Resolver
import MeshsatHub.Topics.BrokerGrants

/-!
# Who a permitted topic is attributed to

The broker's grants confine a bridge to its tenant's namespace. The topics that a bridge may publish
and that some of the four parsers gives to somebody else are those of four shapes of the levels
after the namespace.
-/

namespace MeshsatHub.Topics
open Strings Tenancy

/-- Every parser that accepts the topic gives it to this tenant and bridge,
and no customer's topic is platform traffic in any state of the resolver. -/
structure Attributed (tenantID bridgeID topic : String) : Prop where
  device : ∀ t, parseDeviceTopic topic = some t → t.tenant = tenantID
  bridge : ∀ t, parseBridgeTopic topic = some t → t.tenant = tenantID ∧ t.bridge = bridgeID
  satMO : parseSatMOTopic topic = none
  relay : parseRelayTopic topic = none
  platform : tenantID ≠ defaultTenant →
    ∀ r env, (isPlatformTopic r env topic).1 = false

def innerLevels (tenantID topic : String) : List String :=
  (split '/' topic).drop (namespaceLevels tenantID).length

/-- A customer's device level that is a suffix word: the tenant then stands
where the legacy shape has its device. -/
def shadowsTenant (tenantID : String) : List String → Bool
  | d :: _ => tenantID ≠ defaultTenant && d ∈ deviceSuffixHeads
  | [] => false

def namesOtherBridge (bridgeID : String) : List String → Bool
  | d :: other :: _ :: _ => d = "bridge" && other ≠ bridgeID
  | _ => false

/-- A device called `relay` whose suffix has the shape of a tunnel. -/
def readsAsRelay : List String → Bool
  | [d, _, client, dir] => d = "relay" && client ≠ "" && (dir = "up" || dir = "down")
  | _ => false

/-- The subtree of a platform bridge called `hub`, read as the satellite copies
of a tenant called `bridge`. -/
def readsAsSatMO (tenantID : String) : List String → Bool
  | [d, hub, satmo, imei] =>
    tenantID = defaultTenant && d = "bridge" && hub = "hub" && satmo = "satmo" && imei ≠ ""
  | _ => false

/-- The levels that some parser gives to another sender. -/
def misread (tenantID bridgeID : String) (inner : List String) : Bool :=
  shadowsTenant tenantID inner || namesOtherBridge bridgeID inner || readsAsRelay inner ||
    readsAsSatMO tenantID inner

variable {tenantID bridgeID s : String} {rest : List String}

theorem GrantedLevels.own_or_suffix (h : GrantedLevels bridgeID rest) :
    (∃ x xs, rest = "bridge" :: bridgeID :: x :: xs) ∨
      ∃ d s tail, rest = d :: s :: tail ∧ s ∈ deviceSuffixHeads := by
  have hleaf : ∀ s ∈ leafSuffixes, s ∈ deviceSuffixHeads := by decide
  have htree : ∀ s ∈ treeSuffixes, s ∈ deviceSuffixHeads := by decide
  cases h with
  | own x xs => exact Or.inl ⟨x, xs, rfl⟩
  | leaf d s hs => exact Or.inr ⟨d, s, [], rfl, hleaf s hs⟩
  | tree d s x xs hs => exact Or.inr ⟨d, s, x :: xs, rfl, htree s hs⟩
  | config d => exact Or.inr ⟨d, "config", ["current"], rfl, by decide⟩

theorem suffixHead_ne (hs : s ∈ deviceSuffixHeads) :
    s ≠ "" ∧ s ≠ "bridge" ∧ s ≠ "relay" ∧ s ≠ "hub" ∧ s ≠ "satmo" := by
  have h : ∀ s ∈ deviceSuffixHeads,
      s ≠ "" ∧ s ≠ "bridge" ∧ s ≠ "relay" ∧ s ≠ "hub" ∧ s ≠ "satmo" := by decide
  exact h s hs

theorem TenantId.ne_reserved (ht : TenantId tenantID) :
    tenantID ≠ "hub" ∧ tenantID ≠ "broadcast" ∧ tenantID ≠ "bridge" ∧ tenantID ≠ "relay" := by
  have h := ht.unreserved
  simpa [reservedSecond] using h

theorem validBridgeID_ne_empty (hb : validBridgeID bridgeID) : bridgeID ≠ "" := by
  intro h
  subst h
  exact absurd hb (by decide)

theorem decodeSegment_bridgeID (hb : validBridgeID bridgeID) : decodeSegment bridgeID = bridgeID :=
  decodeSegment_of_lacks (validBridgeID_chars hb rfl)

theorem parseDeviceLevels_platform (h : GrantedLevels bridgeID rest) {t : DeviceTopic}
    (ht : parseDeviceLevels ("meshsat" :: rest) = some t) : t.tenant = defaultTenant := by
  obtain ⟨x, xs, rfl⟩ | ⟨d, s, tail, rfl, hs⟩ := h.own_or_suffix
  · have hnone : parseDeviceLevels ("meshsat" :: "bridge" :: bridgeID :: x :: xs) = none := by
      simp [parseDeviceLevels, reservedSecond]
    rw [hnone] at ht
    exact absurd ht (by simp)
  · by_cases hr : d ∈ reservedSecond
    · have hnone : parseDeviceLevels ("meshsat" :: d :: s :: tail) = none := by
        cases tail <;> simp [parseDeviceLevels, hr]
      rw [hnone] at ht
      exact absurd ht (by simp)
    · simp only [parseDeviceLevels, hs, hr, not_false_eq_true, and_self, if_true] at ht
      split at ht
      · exact absurd ht (by simp)
      · exact (Option.some.inj ht) ▸ rfl

/-- The device parser gives a topic of a customer's namespace to the customer
exactly when the device level is no suffix word. -/
theorem parseDeviceLevels_customer (htenant : TenantId tenantID) (hd : tenantID ≠ defaultTenant)
    (rest : List String) :
    (∀ t, parseDeviceLevels ("meshsat" :: tenantID :: rest) = some t → t.tenant = tenantID) ↔
      shadowsTenant tenantID rest = false := by
  cases rest with
  | nil => simp [parseDeviceLevels, shadowsTenant]
  | cons d rest =>
    by_cases hmem : d ∈ deviceSuffixHeads
    · have hlegacy : parseDeviceLevels ("meshsat" :: tenantID :: d :: rest) =
          some ⟨defaultTenant, decodeSegment tenantID, joinWith "/" (d :: rest)⟩ := by
        simp [parseDeviceLevels, htenant.nonempty, hmem, htenant.unreserved]
      have hshadow : shadowsTenant tenantID (d :: rest) := by
        simp [shadowsTenant, hd, hmem]
      rw [hlegacy, hshadow]
      simp [Ne.symm hd]
    · have hshadow : shadowsTenant tenantID (d :: rest) = false := by
        simp [shadowsTenant, hmem]
      refine iff_of_true ?_ hshadow
      intro t ht
      simp only [parseDeviceLevels, hmem, false_and, if_false] at ht
      split at ht
      · exact absurd ht (by simp)
      · split at ht
        · split at ht
          · exact (Option.some.inj ht) ▸ rfl
          · exact absurd ht (by simp)
        · exact absurd ht (by simp)

theorem parseDeviceLevels_granted (ht : TenantId tenantID) (h : GrantedLevels bridgeID rest) :
    (∀ t, parseDeviceLevels (namespaceLevels tenantID ++ rest) = some t →
      t.tenant = tenantID) ↔ shadowsTenant tenantID rest = false := by
  by_cases hd : tenantID = defaultTenant
  · have hshadow : shadowsTenant tenantID rest = false := by
      cases rest <;> simp [shadowsTenant, hd]
    rw [namespaceLevels, if_pos hd, hd]
    exact iff_of_true (fun _ => parseDeviceLevels_platform h) (hd ▸ hshadow)
  · rw [namespaceLevels, if_neg hd]
    exact parseDeviceLevels_customer ht hd rest

theorem decodeSegment_suffixHead (hs : s ∈ deviceSuffixHeads) : decodeSegment s = s := by
  have h : ∀ s ∈ deviceSuffixHeads, decodeSegment s = s := by decide
  exact h s hs

section
variable (ht : TenantId tenantID)
include ht

/-- Both shapes put the bridge's id after the word `bridge`. -/
theorem parseBridgeLevels_bridge {b x : String} {xs : List String} (hb : b ≠ "") :
    parseBridgeLevels (namespaceLevels tenantID ++ "bridge" :: b :: x :: xs) =
      some ⟨tenantID, decodeSegment b, x :: xs⟩ := by
  obtain ⟨_, _, hbridge, _⟩ := ht.ne_reserved
  by_cases hd : tenantID = defaultTenant
  · simp [namespaceLevels, hd, parseBridgeLevels, hb]
  · simp [namespaceLevels, hd, parseBridgeLevels, hb, hbridge, ht.unreserved]

theorem parseBridgeLevels_device {d : String} {tail : List String} (hs : s ∈ deviceSuffixHeads)
    (hd : d ≠ "bridge") :
    parseBridgeLevels (namespaceLevels tenantID ++ d :: s :: tail) = none := by
  obtain ⟨_, _, hbridge, _⟩ := ht.ne_reserved
  obtain ⟨_, hsbridge, _⟩ := suffixHead_ne hs
  by_cases hdef : tenantID = defaultTenant
  · obtain _ | ⟨x, xs⟩ := tail <;> simp [namespaceLevels, hdef, parseBridgeLevels, hd, hsbridge]
  · simp [namespaceLevels, hdef, parseBridgeLevels, hd, hbridge]

theorem parseBridgeLevels_granted (hb : validBridgeID bridgeID) (h : GrantedLevels bridgeID rest) :
    (∀ t, parseBridgeLevels (namespaceLevels tenantID ++ rest) = some t →
      t.tenant = tenantID ∧ t.bridge = bridgeID) ↔ namesOtherBridge bridgeID rest = false := by
  obtain ⟨x, xs, rfl⟩ | ⟨d, s, tail, rfl, hs⟩ := h.own_or_suffix
  · rw [parseBridgeLevels_bridge ht (validBridgeID_ne_empty hb), decodeSegment_bridgeID hb]
    simp [namesOtherBridge]
  · by_cases hd : d = "bridge"
    · subst hd
      cases tail with
      | nil =>
        have hnone : parseBridgeLevels (namespaceLevels tenantID ++ ["bridge", s]) = none := by
          unfold namespaceLevels
          split <;> simp [parseBridgeLevels, ht.ne_reserved]
        rw [hnone]
        simp [namesOtherBridge]
      | cons x xs =>
        rw [parseBridgeLevels_bridge ht (suffixHead_ne hs).1, decodeSegment_suffixHead hs]
        simp [namesOtherBridge]
    · rw [parseBridgeLevels_device ht hs hd]
      cases tail <;> simp [namesOtherBridge, hd]

theorem parseSatMOLevels_granted (h : GrantedLevels bridgeID rest) :
    parseSatMOLevels (namespaceLevels tenantID ++ rest) = none ↔
      readsAsSatMO tenantID rest = false := by
  obtain ⟨hhub, _, _, _⟩ := ht.ne_reserved
  obtain ⟨x, xs, rfl⟩ | ⟨d, s, tail, rfl, hs⟩ := h.own_or_suffix
  · by_cases hd : tenantID = defaultTenant
    · obtain _ | ⟨y, _ | ⟨z, zs⟩⟩ := xs <;>
        simp [namespaceLevels, hd, parseSatMOLevels, readsAsSatMO]
    · obtain _ | ⟨y, _ | ⟨z, zs⟩⟩ := xs <;>
        simp [namespaceLevels, hd, parseSatMOLevels, readsAsSatMO]
  · obtain ⟨_, _, _, hshub, hssat⟩ := suffixHead_ne hs
    by_cases hd : tenantID = defaultTenant
    · obtain _ | ⟨x, _ | ⟨y, _ | ⟨z, zs⟩⟩⟩ := tail <;>
        simp [namespaceLevels, hd, parseSatMOLevels, readsAsSatMO, hshub, hssat]
    · obtain _ | ⟨x, _ | ⟨y, _ | ⟨z, zs⟩⟩⟩ := tail <;>
        simp [namespaceLevels, hd, parseSatMOLevels, readsAsSatMO, hhub, hssat]

end

theorem relayTail_eq_none {tenant bridge client dir : String} (hb : bridge ≠ "") :
    relayTail tenant bridge client dir = none ↔
      (client ≠ "" && (dir = "up" || dir = "down")) = false := by
  unfold relayTail
  by_cases hc : client = ""
  · simp [hc]
  · by_cases hup : dir = "up"
    · simp [hb, hc, hup]
    · by_cases hdown : dir = "down"
      · simp [hb, hc, hdown]
      · simp [hup, hdown]

theorem parseRelayLevels_granted (ht : TenantId tenantID) (h : GrantedLevels bridgeID rest) :
    parseRelayLevels (namespaceLevels tenantID ++ rest) = none ↔ readsAsRelay rest = false := by
  obtain ⟨_, _, _, hrelay⟩ := ht.ne_reserved
  obtain ⟨x, xs, rfl⟩ | ⟨d, s, tail, rfl, hs⟩ := h.own_or_suffix
  · by_cases hd : tenantID = defaultTenant
    · obtain _ | ⟨y, _ | ⟨z, _ | ⟨w, ws⟩⟩⟩ := xs <;>
        simp [namespaceLevels, hd, parseRelayLevels, readsAsRelay, reservedSecond]
    · obtain _ | ⟨y, _ | ⟨z, zs⟩⟩ := xs <;>
        simp [namespaceLevels, hd, parseRelayLevels, readsAsRelay, hrelay]
  · obtain ⟨hsne, _, hsrelay, _⟩ := suffixHead_ne hs
    by_cases hd : tenantID = defaultTenant
    · obtain _ | ⟨x, _ | ⟨y, _ | ⟨z, _ | ⟨w, ws⟩⟩⟩⟩ := tail <;>
        simp [namespaceLevels, hd, parseRelayLevels, readsAsRelay, hsrelay, relayTail_eq_none hsne]
    · obtain _ | ⟨x, _ | ⟨y, _ | ⟨z, zs⟩⟩⟩ := tail <;>
        simp [namespaceLevels, hd, parseRelayLevels, readsAsRelay, hrelay, ht.nonempty,
          ht.unreserved, relayTail_eq_none hsne]

/-- Everything a bridge may publish is attributed to its own tenant and to
itself, except for the topics whose inner levels are misread. -/
theorem attributed_iff {tenantID bridgeID topic : String} (ht : TenantId tenantID)
    (hb : validBridgeID bridgeID = true) (hdots : Lacks '.' topic)
    (hpublish : mayPublish (topicNamespace tenantID) bridgeID topic = true) :
    Attributed tenantID bridgeID topic ↔
      misread tenantID bridgeID (innerLevels tenantID topic) = false := by
  have hallowed : publishAllowed (topicNamespace tenantID) bridgeID topic := by
    simp only [mayPublish, Bool.and_eq_true] at hpublish
    exact hpublish.1
  obtain ⟨rest, hlevels, hrest⟩ := (publishAllowed_iff ht hdots hb).1 hallowed
  have hinner : innerLevels tenantID topic = rest := by
    rw [innerLevels, hlevels, List.drop_left]
  have hdevice := parseDeviceLevels_granted ht hrest
  have hbridge := parseBridgeLevels_granted ht hb hrest
  have hsat := parseSatMOLevels_granted ht hrest
  have hrelay := parseRelayLevels_granted ht hrest
  rw [← hlevels] at hdevice hbridge hsat hrelay
  simp only [misread, Bool.or_eq_false_iff, hinner]
  constructor
  · intro h
    exact ⟨⟨⟨hdevice.1 h.device, hbridge.1 h.bridge⟩, hrelay.1 h.relay⟩, hsat.1 h.satMO⟩
  · intro ⟨⟨⟨hd, ho⟩, hr⟩, hs⟩
    refine ⟨hdevice.2 hd, hbridge.2 ho, hsat.2 hs, hrelay.2 hr, ?_⟩
    intro hne r env
    apply isPlatformTopic_of_tenant_ne
    · intro t hparse
      rw [hdevice.2 hd t hparse]
      exact hne
    · intro t hparse
      rw [(hbridge.2 ho t hparse).1]
      exact hne

theorem attributed_position :
    mayPublish (topicNamespace "t_x") "b1" "meshsat/t_x/300434061/position" = true ∧
      (Attributed "t_x" "b1" "meshsat/t_x/300434061/position" ↔
        misread "t_x" "b1" (innerLevels "t_x" "meshsat/t_x/300434061/position") = false) :=
  ⟨by decide +kernel,
    attributed_iff (by decide) (by decide) (by decide +kernel) (by decide +kernel)⟩

/-- A customer's device called `mo`: its position is the platform's, under the
customer's tenant id as the device. -/
theorem suffix_word_device_not_attributed :
    TenantId "t_x" ∧ validBridgeID "b1" = true ∧ Lacks '.' "meshsat/t_x/mo/position" ∧
      mayPublish (topicNamespace "t_x") "b1" "meshsat/t_x/mo/position" = true ∧
      parseDeviceTopic "meshsat/t_x/mo/position" = some ⟨"default", "t_x", "mo/position"⟩ ∧
      (isPlatformTopic (newResolver "default" 60)
        ⟨0, fun _ => .notFound, fun _ => .notFound, fun _ => .found⟩
        "meshsat/t_x/mo/position").1 = true ∧
      ¬ Attributed "t_x" "b1" "meshsat/t_x/mo/position" := by
  have hparse : parseDeviceTopic "meshsat/t_x/mo/position" =
      some ⟨"default", "t_x", "mo/position"⟩ := by decide +kernel
  refine ⟨by decide, by decide, by decide +kernel, by decide +kernel, hparse, by decide +kernel, ?_⟩
  intro h
  exact absurd (h.device _ hparse) (by decide +kernel)

end MeshsatHub.Topics
