import MeshsatHub.Topics.BrokerGrants

/-!
# Topics that are built and read back

The builders of `internal/mqtt/topics.go` write a tenant, ids and a suffix into one topic, and the
parsers take it apart again. A device called like a suffix head makes its customer the device, and
one called like a reserved level makes no device topic at all.
-/

namespace MeshsatHub.Topics
open Strings List

structure Level (tenantID : String) : Prop where
  nonempty : tenantID ≠ ""
  slash : Lacks '/' tenantID
  unreserved : tenantID ∉ reservedSecond

def suffixHead (suffix : String) : String := (split '/' suffix).headD ""

/-- A text without the wildcards of MQTT. -/
def Plain (s : String) : Prop := Lacks '+' s ∧ Lacks '#' s

instance (s : String) : Decidable (Plain s) := inferInstanceAs (Decidable (_ ∧ _))

/-- Whether the words tell the shape of a device topic. -/
def toldApart (tenantID deviceID : String) : Prop :=
  deviceID ∉ reservedSecond ∧ (tenantID = defaultTenant ∨ deviceID ∉ deviceSuffixHeads)

instance (tenantID deviceID : String) : Decidable (toldApart tenantID deviceID) :=
  inferInstanceAs (Decidable (_ ∧ _))

theorem encodeSegment_injective {id id' : String} (h : encodeSegment id = encodeSegment id') :
    id = id' := by
  rw [← decodeSegment_encodeSegment id, h, decodeSegment_encodeSegment]

theorem encodeSegment_ne_empty {id : String} (h : id ≠ "") : encodeSegment id ≠ "" := by
  intro heq
  have hempty : encodeSegment id = encodeSegment "" := heq
  exact h (encodeSegment_injective hempty)

theorem encodeSegment_mem_iff {words : List String} (hwords : ∀ w ∈ words, encodeSegment w = w)
    (id : String) : encodeSegment id ∈ words ↔ id ∈ words := by
  constructor
  · intro h
    have heq : encodeSegment (encodeSegment id) = encodeSegment id := hwords _ h
    rwa [encodeSegment_injective heq] at h
  · intro h
    rwa [hwords id h]

theorem encodeSegment_mem_reservedSecond (id : String) :
    encodeSegment id ∈ reservedSecond ↔ id ∈ reservedSecond :=
  encodeSegment_mem_iff (by decide) id

theorem encodeSegment_mem_deviceSuffixHeads (id : String) :
    encodeSegment id ∈ deviceSuffixHeads ↔ id ∈ deviceSuffixHeads :=
  encodeSegment_mem_iff (by decide) id

theorem encodeSegment_plain (id : String) : Plain (encodeSegment id) :=
  ⟨encodeSegment_lacks_reserved (by decide) id, encodeSegment_lacks_reserved (by decide) id⟩

theorem split_slash (a b : String) : split '/' (a ++ "/" ++ b) = split '/' a ++ split '/' b := by
  rw [String.append_assoc, split_append (u := b) (by simp)]

theorem split_level (a : String) {b : String} (h : Lacks '/' b) :
    split '/' (a ++ "/" ++ b) = split '/' a ++ [b] := by
  rw [split_slash, split_of_lacks h]

variable {tenantID dir suffix : String}

section
variable (ht : Level tenantID)
include ht

theorem split_deviceTopic (deviceID suffix : String) :
    split '/' (deviceTopic tenantID deviceID suffix) =
      namespaceLevels tenantID ++ encodeSegment deviceID :: split '/' suffix := by
  rw [deviceTopic, split_slash, split_level _ (encodeSegment_lacks deviceID),
    split_topicNamespace ht.nonempty ht.slash, append_assoc]
  rfl

omit ht in
theorem append_word (a word slashed : String) (h : slashed = "/" ++ word ++ "/") :
    a ++ slashed = a ++ "/" ++ word ++ "/" := by
  rw [h]
  simp only [String.append_assoc]

theorem split_bridgeTopic (bridgeID suffix : String) :
    split '/' (bridgeTopic tenantID bridgeID suffix) =
      namespaceLevels tenantID ++ "bridge" :: encodeSegment bridgeID :: split '/' suffix := by
  rw [bridgeTopic, append_word _ "bridge" "/bridge/" rfl, split_slash,
    split_level _ (encodeSegment_lacks bridgeID), split_level _ (by decide),
    split_topicNamespace ht.nonempty ht.slash]
  simp only [append_assoc, cons_append, nil_append]

theorem split_relayTopic (bridgeID clientID : String) (hdir : Lacks '/' dir) :
    split '/' (relayTopic tenantID bridgeID clientID dir) =
      namespaceLevels tenantID ++
        ["relay", encodeSegment bridgeID, encodeSegment clientID, dir] := by
  rw [relayTopic, append_word _ "relay" "/relay/" rfl, split_level _ hdir,
    split_level _ (encodeSegment_lacks clientID), split_level _ (encodeSegment_lacks bridgeID),
    split_level _ (by decide), split_topicNamespace ht.nonempty ht.slash]
  simp only [append_assoc, cons_append, nil_append]

theorem split_topicSatMOFor (imei : String) : split '/' (topicSatMOFor tenantID imei) =
      namespaceLevels tenantID ++ ["hub", "satmo", encodeSegment imei] := by
  have hwords : split '/' "hub/satmo" = ["hub", "satmo"] := by decide
  rw [topicSatMOFor, append_word _ "hub/satmo" "/hub/satmo/" rfl,
    split_level _ (encodeSegment_lacks imei), split_slash, hwords,
    split_topicNamespace ht.nonempty ht.slash]
  simp only [append_assoc, cons_append, nil_append]

end

theorem suffixHead_mem (h : suffixHead suffix ∈ deviceSuffixHeads) :
    ∃ head rest, split '/' suffix = head :: rest ∧ head ∈ deviceSuffixHeads := by
  unfold suffixHead at h
  cases hsplit : split '/' suffix with rw [hsplit] at h
  | nil => exact absurd h (by decide)
  | cons head rest => exact ⟨head, rest, rfl, h⟩

theorem namespaceLevels_default : namespaceLevels defaultTenant = ["meshsat"] := rfl

theorem namespaceLevels_customer (h : tenantID ≠ defaultTenant) :
    namespaceLevels tenantID = ["meshsat", tenantID] := if_neg h

section
variable (ht : Level tenantID)
include ht

theorem parseDeviceTopic_deviceTopic {deviceID : String} (hdevice : deviceID ≠ "")
    (hsuffix : suffixHead suffix ∈ deviceSuffixHeads) :
    parseDeviceTopic (deviceTopic tenantID deviceID suffix) =
        some ⟨tenantID, deviceID, suffix⟩ ↔ toldApart tenantID deviceID := by
  obtain ⟨head, rest, hsplit, hhead⟩ := suffixHead_mem hsuffix
  have hjoin : joinWith "/" (head :: rest) = suffix := by
    rw [← hsplit]
    exact joinWith_split '/' suffix
  have hne := encodeSegment_ne_empty hdevice
  unfold parseDeviceTopic toldApart
  rw [split_deviceTopic ht, hsplit]
  by_cases hd : tenantID = defaultTenant
  · subst hd
    rw [namespaceLevels_default]
    simp only [cons_append, nil_append, parseDeviceLevels, hhead, hne, true_and,
      encodeSegment_mem_reservedSecond, decodeSegment_encodeSegment, hjoin]
    by_cases hres : deviceID ∈ reservedSecond
    · simp only [hres]
      cases rest with
      | nil | cons fourth more => simp
    · simp [hres]
  · rw [namespaceLevels_customer hd]
    simp only [cons_append, nil_append, parseDeviceLevels, hhead, ht.unreserved,
      ht.nonempty, encodeSegment_mem_reservedSecond, encodeSegment_mem_deviceSuffixHeads,
      decodeSegment_encodeSegment, hjoin, hd, false_or]
    by_cases hword : deviceID ∈ deviceSuffixHeads
    · simp [hword, Ne.symm hd]
    · by_cases hres : deviceID ∈ reservedSecond
      · simp [hword, hres]
      · simp [hword, hres, hne]

theorem parseBridgeTopic_bridgeTopic {bridgeID : String} (hbridge : bridgeID ≠ "") (suffix : String)
    :
    parseBridgeTopic (bridgeTopic tenantID bridgeID suffix) =
      some ⟨tenantID, bridgeID, split '/' suffix⟩ := by
  have hne := encodeSegment_ne_empty hbridge
  obtain ⟨head, rest, hsplit⟩ : ∃ head rest, split '/' suffix = head :: rest := by
    cases h : split '/' suffix with
    | nil => simp [split] at h
    | cons head rest => exact ⟨head, rest, rfl⟩
  unfold parseBridgeTopic
  rw [split_bridgeTopic ht, hsplit]
  by_cases hd : tenantID = defaultTenant
  · subst hd
    rw [namespaceLevels_default]
    simp [parseBridgeLevels, hne, decodeSegment_encodeSegment]
  · have hword : tenantID ≠ "bridge" := fun h => ht.unreserved (by rw [h]; decide)
    rw [namespaceLevels_customer hd]
    simp [parseBridgeLevels, hne, hword, ht.unreserved, decodeSegment_encodeSegment]

theorem parseRelayTopic_relayTopic {bridgeID clientID : String} (hbridge : bridgeID ≠ "")
    (hclient : clientID ≠ "") (hdir : dir = "up" ∨ dir = "down") :
    parseRelayTopic (relayTopic tenantID bridgeID clientID dir) =
      some ⟨tenantID, bridgeID, clientID, dir⟩ := by
  have hb := encodeSegment_ne_empty hbridge
  have hc := encodeSegment_ne_empty hclient
  have hlacks : Lacks '/' dir := by
    obtain rfl | rfl := hdir <;> decide
  have htail : ∀ tenant, relayTail tenant (encodeSegment bridgeID) (encodeSegment clientID) dir =
      some ⟨tenant, bridgeID, clientID, dir⟩ := by
    intro tenant
    have hguard : ¬ ((dir ≠ "up" ∧ dir ≠ "down") ∨ encodeSegment bridgeID = "" ∨
        encodeSegment clientID = "") := by
      rintro (⟨hup, hdown⟩ | h | h)
      · exact hdir.elim hup hdown
      · exact hb h
      · exact hc h
    unfold relayTail
    rw [if_neg hguard, decodeSegment_encodeSegment, decodeSegment_encodeSegment]
  unfold parseRelayTopic
  rw [split_relayTopic ht _ _ hlacks]
  by_cases hd : tenantID = defaultTenant
  · subst hd
    rw [namespaceLevels_default]
    simp [parseRelayLevels, htail]
  · rw [namespaceLevels_customer hd]
    simp [parseRelayLevels, htail, ht.unreserved, ht.nonempty]

theorem parseSatMOTopic_topicSatMOFor {imei : String} (himei : imei ≠ "") :
    parseSatMOTopic (topicSatMOFor tenantID imei) = some ⟨tenantID, imei⟩ := by
  have hne := encodeSegment_ne_empty himei
  unfold parseSatMOTopic
  rw [split_topicSatMOFor ht]
  by_cases hd : tenantID = defaultTenant
  · subst hd
    rw [namespaceLevels_default]
    simp [parseSatMOLevels, hne, decodeSegment_encodeSegment]
  · rw [namespaceLevels_customer hd]
    simp [parseSatMOLevels, hne, ht.nonempty, decodeSegment_encodeSegment]

end

theorem plain_append (s t : String) : Plain (s ++ t) ↔ Plain s ∧ Plain t := by
  simp only [Plain, Lacks, String.toList_append, mem_append, not_or]
  tauto

theorem plain_topicNamespace (hne : tenantID ≠ "") :
    Plain (topicNamespace tenantID) ↔ Plain tenantID := by
  unfold topicNamespace
  by_cases hd : tenantID = defaultTenant
  · rw [if_pos (.inr hd), hd]
    decide
  · rw [if_neg (not_or.2 ⟨hne, hd⟩), plain_append]
    exact and_iff_right (by decide)

def builtTopics (tenantID deviceID suffix bridgeID rest clientID dir imei : String) : List String :=
  [deviceTopic tenantID deviceID suffix, bridgeTopic tenantID bridgeID rest,
    relayTopic tenantID bridgeID clientID dir, topicSatMOFor tenantID imei]

theorem plain_builtTopics (hne : tenantID ≠ "")
    (deviceID suffix bridgeID rest clientID imei : String) (hdir : dir = "up" ∨ dir = "down") :
    (∀ topic ∈ builtTopics tenantID deviceID suffix bridgeID rest clientID dir imei,
      Plain topic) ↔ Plain tenantID ∧ Plain suffix ∧ Plain rest := by
  have hplain : Plain dir := by
    obtain rfl | rfl := hdir <;> decide
  have hwords : Plain "/" ∧ Plain "/bridge/" ∧ Plain "/relay/" ∧ Plain "/hub/satmo/" := by decide
  obtain ⟨hslash, hbridge, hrelay, hsatmo⟩ := hwords
  simp only [builtTopics, forall_mem_cons, deviceTopic, bridgeTopic, relayTopic,
    topicSatMOFor, plain_append, plain_topicNamespace hne, encodeSegment_plain, hslash, hbridge,
    hrelay, hsatmo, hplain, and_true]
  tauto

/-- What is built of a tenant, ids and suffixes is read back, and without a wildcard, exactly
where the words tell the shape of the device topic and neither the tenant nor a suffix has a
wildcard. Device topics that are told apart are never shared, and bridge topics never. -/
theorem built_topics_read_back_iff
    {tenantID deviceID suffix bridgeID rest clientID dir imei : String}
    (ht : Level tenantID) (hdevice : deviceID ≠ "")
    (hsuffix : suffixHead suffix ∈ deviceSuffixHeads) (hbridge : bridgeID ≠ "")
    (hclient : clientID ≠ "") (hdir : dir = "up" ∨ dir = "down") (himei : imei ≠ "") :
    ((parseDeviceTopic (deviceTopic tenantID deviceID suffix) = some ⟨tenantID, deviceID, suffix⟩ ∧
        parseBridgeTopic (bridgeTopic tenantID bridgeID rest) =
          some ⟨tenantID, bridgeID, split '/' rest⟩ ∧
        parseRelayTopic (relayTopic tenantID bridgeID clientID dir) =
          some ⟨tenantID, bridgeID, clientID, dir⟩ ∧
        parseSatMOTopic (topicSatMOFor tenantID imei) = some ⟨tenantID, imei⟩ ∧
        ∀ topic ∈ builtTopics tenantID deviceID suffix bridgeID rest clientID dir imei,
          Plain topic) ↔
      toldApart tenantID deviceID ∧ Plain tenantID ∧ Plain suffix ∧ Plain rest) ∧
    (toldApart tenantID deviceID → ∀ tenantID' deviceID' suffix', Level tenantID' →
      deviceID' ≠ "" → suffixHead suffix' ∈ deviceSuffixHeads → toldApart tenantID' deviceID' →
        deviceTopic tenantID deviceID suffix = deviceTopic tenantID' deviceID' suffix' →
          tenantID = tenantID' ∧ deviceID = deviceID' ∧ suffix = suffix') ∧
    ∀ tenantID' bridgeID' rest', Level tenantID' → bridgeID' ≠ "" →
      bridgeTopic tenantID bridgeID rest = bridgeTopic tenantID' bridgeID' rest' →
        tenantID = tenantID' ∧ bridgeID = bridgeID' ∧ rest = rest' := by
  refine ⟨?_, ?_, ?_⟩
  · rw [parseDeviceTopic_deviceTopic ht hdevice hsuffix,
      plain_builtTopics ht.nonempty deviceID suffix bridgeID rest clientID imei hdir]
    constructor
    · rintro ⟨htold, -, -, -, hplain⟩
      exact ⟨htold, hplain⟩
    · rintro ⟨htold, hplain⟩
      exact ⟨htold, parseBridgeTopic_bridgeTopic ht hbridge rest,
        parseRelayTopic_relayTopic ht hbridge hclient hdir,
        parseSatMOTopic_topicSatMOFor ht himei, hplain⟩
  · intro htold tenantID' deviceID' suffix' ht' hdevice' hsuffix' htold' htopic
    have hread := (parseDeviceTopic_deviceTopic ht hdevice hsuffix).2 htold
    rw [htopic, (parseDeviceTopic_deviceTopic ht' hdevice' hsuffix').2 htold'] at hread
    cases hread
    exact ⟨rfl, rfl, rfl⟩
  · intro tenantID' bridgeID' rest' ht' hbridge' htopic
    have hread := parseBridgeTopic_bridgeTopic ht hbridge rest
    rw [htopic, parseBridgeTopic_bridgeTopic ht' hbridge' rest'] at hread
    injection hread with hread
    injection hread with htenant hid hrest
    refine ⟨htenant.symm, hid.symm, ?_⟩
    rw [← joinWith_split '/' rest, ← hrest, joinWith_split]

/-- A phone number of a customer, with a suffix of two levels. -/
theorem built_topics_read_back_phone : Level "acme" ∧ toldApart "acme" "+316%2B/#" ∧
      parseDeviceTopic (deviceTopic "acme" "+316%2B/#" "mo/decoded") =
        some ⟨"acme", "+316%2B/#", "mo/decoded"⟩ := by
  have hlevel : Level "acme" := ⟨by decide, by decide, by decide⟩
  have htold : toldApart "acme" "+316%2B/#" := by decide
  have hdevice : "+316%2B/#" ≠ "" := by decide
  have hsuffix : suffixHead "mo/decoded" ∈ deviceSuffixHeads := by decide
  have hid : "1" ≠ "" := by decide
  have hplain : Plain "acme" ∧ Plain "mo/decoded" ∧ Plain "birth" := by decide
  have hread := (built_topics_read_back_iff hlevel hdevice hsuffix hid hid (.inl rfl) hid).1.2
    ⟨htold, hplain⟩
  exact ⟨hlevel, htold, hread.1⟩

/-- A device called `mo` under a customer has the topic of the default tenant's device with the
customer's name, and is read as that. -/
theorem suffix_word_device_shares_topic :
    Level "acme" ∧ suffixHead "sos" ∈ deviceSuffixHeads ∧ suffixHead "mo/sos" ∈ deviceSuffixHeads ∧
      deviceTopic "acme" "mo" "sos" = deviceTopic defaultTenant "acme" "mo/sos" ∧
      parseDeviceTopic (deviceTopic "acme" "mo" "sos") ≠ some ⟨"acme", "mo", "sos"⟩ := by
  refine ⟨⟨by decide, by decide, by decide⟩, by decide, by decide, by decide, ?_⟩
  rw [Ne, parseDeviceTopic_deviceTopic ⟨by decide, by decide, by decide⟩ (by decide) (by decide)]
  decide

end MeshsatHub.Topics
