import MeshsatHub.Foundations.Strings

/-!
# Topic shapes of the Hub

The topics of `internal/mqtt/topics.go`. The default tenant keeps the historical shape; every other
tenant has its id as one more level after `meshsat`. Only two word tables tell the shapes apart. A
parser's `ok = false` is `none`.
-/

namespace MeshsatHub.Topics
open Strings List String

/-- The tenant whose topics carry no prefix. -/
def defaultTenant : String := "default"

/-- The replacer `%25`, `%2B`, `%23`, `%2F` runs left to right, one pass. -/
def decodeChars : List Char → List Char
  | '%' :: '2' :: 'B' :: rest => '+' :: decodeChars rest
  | '%' :: '2' :: '3' :: rest => '#' :: decodeChars rest
  | '%' :: '2' :: 'F' :: rest => '/' :: decodeChars rest
  | '%' :: '2' :: '5' :: rest => '%' :: decodeChars rest
  | c :: rest => c :: decodeChars rest
  | [] => []

/-- The characters a topic segment writes for one character of an identifier. -/
def encodeChar : Char → List Char
  | '%' => ['%', '2', '5']
  | '+' => ['%', '2', 'B']
  | '#' => ['%', '2', '3']
  | '/' => ['%', '2', 'F']
  | c => [c]

def encodeSegment (id : String) : String := ofList (id.toList.flatMap encodeChar)

def decodeSegment (seg : String) : String := ofList (decodeChars seg.toList)

/-- The first levels that can follow a device id. -/
def deviceSuffixHeads : List String :=
  ["mo", "mt", "position", "sos", "status", "telemetry", "config", "sms", "health", "signal"]

/-- Second levels that are neither devices nor tenants. -/
def reservedSecond : List String := ["hub", "broadcast", "bridge", "relay"]

def topicNamespace (tenantID : String) : String :=
  if tenantID = "" ∨ tenantID = defaultTenant then "meshsat" else "meshsat/" ++ tenantID

def deviceTopic (tenantID deviceID suffix : String) : String :=
  topicNamespace tenantID ++ "/" ++ encodeSegment deviceID ++ "/" ++ suffix

def bridgeTopic (tenantID bridgeID suffix : String) : String :=
  topicNamespace tenantID ++ "/bridge/" ++ encodeSegment bridgeID ++ "/" ++ suffix

def relayTopic (tenantID bridgeID clientID dir : String) : String :=
  topicNamespace tenantID ++ "/relay/" ++ encodeSegment bridgeID ++ "/" ++
    encodeSegment clientID ++ "/" ++ dir

def topicSatMOFor (tenantID imei : String) : String :=
  topicNamespace tenantID ++ "/hub/satmo/" ++ encodeSegment imei

def topicSOSFor (tenantID deviceID : String) : String := deviceTopic tenantID deviceID "sos"

structure DeviceTopic where
  tenant : String
  device : String
  suffix : String
  deriving DecidableEq

structure BridgeTopic where
  tenant : String
  bridge : String
  rest : List String

structure RelayTopic where
  tenant : String
  bridge : String
  client : String
  dir : String

/-- A satellite copy topic taken apart. -/
structure SatMOTopic where
  tenant : String
  imei : String

def parseDeviceLevels : List String → Option DeviceTopic
  | root :: second :: third :: rest =>
    if root ≠ "meshsat" ∨ second = "" then none
    else if third ∈ deviceSuffixHeads ∧ second ∉ reservedSecond then
      some ⟨defaultTenant, decodeSegment second, joinWith "/" (third :: rest)⟩
    else
      match rest with
      | fourth :: more =>
        if fourth ∈ deviceSuffixHeads ∧ second ∉ reservedSecond ∧
            third ∉ reservedSecond ∧ third ≠ "" then
          some ⟨second, decodeSegment third, joinWith "/" (fourth :: more)⟩
        else none
      | [] => none
  | _ => none

variable (topic : String)

def parseDeviceTopic : Option DeviceTopic :=
  parseDeviceLevels (split '/' topic)

/-- The bridge parser on levels: a second level `bridge` decides the legacy
shape before the tenant shape is considered. -/
def parseBridgeLevels : List String → Option BridgeTopic
  | root :: second :: third :: fourth :: rest =>
    if root ≠ "meshsat" then none
    else if second = "bridge" then
      if third ≠ "" then some ⟨defaultTenant, decodeSegment third, fourth :: rest⟩ else none
    else if rest ≠ [] ∧ third = "bridge" ∧ second ∉ reservedSecond then
      if fourth ≠ "" then some ⟨second, decodeSegment fourth, rest⟩ else none
    else none
  | _ => none

def parseBridgeTopic : Option BridgeTopic :=
  parseBridgeLevels (split '/' topic)

/-- The satellite-copy parser on levels. Its tenant shape does not consult
`reservedSecond`, unlike the other parsers. -/
def parseSatMOLevels : List String → Option SatMOTopic
  | [root, second, third, fourth] =>
    if root = "meshsat" ∧ second = "hub" ∧ third = "satmo" ∧ fourth ≠ "" then
      some ⟨defaultTenant, decodeSegment fourth⟩
    else none
  | [root, second, third, fourth, fifth] =>
    if root = "meshsat" ∧ third = "hub" ∧ fourth = "satmo" ∧ second ≠ "" ∧ fifth ≠ "" then
      some ⟨second, decodeSegment fifth⟩
    else none
  | _ => none

def parseSatMOTopic : Option SatMOTopic :=
  parseSatMOLevels (split '/' topic)

def relayTail (tenant bridge client dir : String) : Option RelayTopic :=
  if (dir ≠ "up" ∧ dir ≠ "down") ∨ bridge = "" ∨ client = "" then none
  else some ⟨tenant, decodeSegment bridge, decodeSegment client, dir⟩

def parseRelayLevels : List String → Option RelayTopic
  | [root, second, bridge, client, dir] =>
    if root = "meshsat" ∧ second = "relay" then relayTail defaultTenant bridge client dir
    else none
  | [root, second, third, bridge, client, dir] =>
    if root = "meshsat" ∧ third = "relay" ∧ second ∉ reservedSecond ∧ second ≠ "" then
      relayTail second bridge client dir
    else none
  | _ => none

def parseRelayTopic : Option RelayTopic :=
  parseRelayLevels (split '/' topic)

def extractDeviceID : String :=
  match parseDeviceTopic topic with
  | some t => t.device
  | none => ""

def extractTenantID : String :=
  match parseDeviceTopic topic with
  | some t => t.tenant
  | none => ""

def dualFilters (legacy : String) : List String :=
  if "meshsat/".toList <+: legacy.toList then
    [legacy, "meshsat/+/" ++ ofList (legacy.toList.drop "meshsat/".length)]
  else [legacy]

private theorem decodeChars_cons_of_ne {c : Char} (hc : c ≠ '%') (rest : List Char) :
    decodeChars (c :: rest) = c :: decodeChars rest := by
  rw [decodeChars]
  all_goals
    intro _ heq
    exact absurd heq hc

private theorem decodeChars_of_lacks (l : List Char) (h : '%' ∉ l) : decodeChars l = l := by
  induction l with
  | nil => rfl
  | cons c rest ih =>
    have hc : c ≠ '%' := fun heq => h (by simp [heq])
    have hr : '%' ∉ rest := fun hm => h (mem_cons_of_mem c hm)
    rw [decodeChars_cons_of_ne hc, ih hr]

theorem decodeSegment_of_lacks {seg : String} (h : Lacks '%' seg) : decodeSegment seg = seg := by
  rw [decodeSegment, decodeChars_of_lacks _ h, ofList_toList]

private theorem decodeChars_encodeChar (c : Char) (rest : List Char) :
    decodeChars (encodeChar c ++ rest) = c :: decodeChars rest := by
  fun_cases encodeChar c
  · rfl
  · rfl
  · rfl
  · rfl
  · rename_i hp _ _ _
    exact decodeChars_cons_of_ne hp rest

theorem decodeSegment_encodeSegment (id : String) : decodeSegment (encodeSegment id) = id := by
  have hchars (l : List Char) : decodeChars (l.flatMap encodeChar) = l := by
    induction l with
    | nil => rfl
    | cons c rest ih => rw [flatMap_cons, decodeChars_encodeChar, ih]
  rw [decodeSegment, encodeSegment, toList_ofList, hchars, ofList_toList]

theorem encodeSegment_lacks_reserved {reserved : Char} (h : reserved ∈ ['/', '+', '#'])
    (id : String) : Lacks reserved (encodeSegment id) := by
  simp only [Lacks, encodeSegment, toList_ofList, mem_flatMap, not_exists, not_and]
  intro c _
  have hcases : reserved = '/' ∨ reserved = '+' ∨ reserved = '#' := by simpa using h
  fun_cases encodeChar c
  · obtain rfl | rfl | rfl := hcases <;> decide
  · obtain rfl | rfl | rfl := hcases <;> decide
  · obtain rfl | rfl | rfl := hcases <;> decide
  · obtain rfl | rfl | rfl := hcases <;> decide
  · rw [mem_singleton]
    rintro rfl
    simp_all

theorem encodeSegment_lacks (id : String) : Lacks '/' (encodeSegment id) :=
  encodeSegment_lacks_reserved (by decide) id

end MeshsatHub.Topics
