import MeshsatHub.Topics.RoundTrips

/-!
# What a bridge may read

The subscribe list of `internal/bridge/natsauth.go` against the topics that the Hub publishes for
one bridge or one device. The grants `{ns}.*.mt.>` and `{ns}.*.config.>` also match the subtree of a
bridge that is called `mt` or `config`.
-/

namespace MeshsatHub.Topics
open Strings List

def levelToken (level : String) : String :=
  String.ofList (level.toList.flatMap fun c => if c = '.' then ['/', '/'] else [c])

def topicTokens (topic : String) : List String := (split '/' topic).map levelToken

def subscriptionMatches (grant topic : String) : Bool :=
  tokensMatch (split '.' grant) (topicTokens topic)

def mayRead (ns bridgeID topic : String) : Bool :=
  (natsPermissions ns bridgeID).subscribe.any (subscriptionMatches · topic)

def hubBridgeSuffixes : List String :=
  ["msg/in", "msg/status", "sos/ack", "hub/caps", "tak/cot/in", "rns/access", "warn/in", "mo/ack"]

def wildcardWords : List String := ["mt", "config"]

/-- A suffix under `mt` or `config`; in those of the Hub the level after it is neither word. -/
def isDeviceSuffix (suffix : String) : Bool :=
  match split '/' suffix with
  | word :: level :: _ => word ∈ wildcardWords && level ∉ wildcardWords
  | _ => false

theorem levelToken_of_lacks {level : String} (h : Lacks '.' level) : levelToken level = level := by
  have hchars : ∀ l : List Char, '.' ∉ l →
      (l.flatMap fun c => if c = '.' then ['/', '/'] else [c]) = l := by
    intro l hl
    induction l with
    | nil => rfl
    | cons c rest ih =>
      have hc : c ≠ '.' := fun heq => hl (by simp [heq])
      have hr : '.' ∉ rest := fun hm => hl (mem_cons_of_mem c hm)
      rw [flatMap_cons, ih hr, if_neg hc, singleton_append]
  rw [levelToken, hchars _ h, String.ofList_toList]

theorem levelToken_eq_iff {level word : String} (h : Lacks '/' word) (hdot : Lacks '.' word) :
    levelToken level = word ↔ level = word := by
  constructor
  · intro heq
    have hlacks : Lacks '.' level := by
      intro hmem
      apply h
      rw [← heq, levelToken, String.toList_ofList, mem_flatMap]
      exact ⟨'.', hmem, by simp⟩
    rwa [levelToken_of_lacks hlacks] at heq
  · rintro rfl
    exact levelToken_of_lacks hdot

variable {tenantID bridgeID suffix : String} {rest : List String}

section
variable (ht : TenantId tenantID)
include ht

theorem TenantId.level : Level tenantID :=
  ⟨ht.nonempty, ht.slash, ht.unreserved⟩

theorem topicNamespace_eq_platform :
    topicNamespace tenantID = platformNamespace ↔ tenantID = defaultTenant := by
  unfold topicNamespace
  by_cases hd : tenantID = defaultTenant
  · rw [if_pos (.inr hd)]
    exact iff_of_true rfl hd
  · rw [if_neg (not_or.2 ⟨ht.nonempty, hd⟩)]
    refine iff_of_false (fun heq => ?_) hd
    have hlen := congrArg (fun s : String => s.toList.length) heq
    simp [platformNamespace] at hlen

omit ht in
def subscribeTokens (tenantID bridgeID : String) : List (List String) :=
  [namespaceLevels tenantID ++ ["bridge", bridgeID, ">"],
    namespaceLevels tenantID ++ ["*", "mt", ">"],
    namespaceLevels tenantID ++ ["*", "config", ">"]] ++
  (if tenantID = defaultTenant then [["meshsat", "broadcast", ">"]]
    else [namespaceLevels tenantID ++ ["broadcast", "tak", "cot", "in"],
      namespaceLevels tenantID ++ ["broadcast", "tak", "cot", "in", "*"]]) ++
  [["$MQTT", "sub", ">"]]

theorem subscribe_tokens (hb : validBridgeID bridgeID) :
    (natsPermissions (topicNamespace tenantID) bridgeID).subscribe.map (split '.') =
      subscribeTokens tenantID bridgeID := by
  have hmt := split_grant ht ".*.mt.>" "*.mt.>" rfl
  have hconfig := split_grant ht ".*.config.>" "*.config.>" rfl
  have hin := split_grant ht ".broadcast.tak.cot.in" "broadcast.tak.cot.in" rfl
  have hfrom := split_grant ht ".broadcast.tak.cot.in.*" "broadcast.tak.cot.in.*" rfl
  unfold natsPermissions subscribeTokens
  dsimp only
  by_cases hd : tenantID = defaultTenant
  · rw [if_pos hd, if_pos ((topicNamespace_eq_platform ht).2 hd)]
    simp only [map_append, map_cons, map_nil, split_own_grant ht hb, hmt, hconfig]
    rfl
  · rw [if_neg hd, if_neg fun h => hd ((topicNamespace_eq_platform ht).1 h)]
    simp only [map_append, map_cons, map_nil, split_own_grant ht hb, hmt, hconfig, hin, hfrom]
    rfl

theorem mayRead_eq (hb : validBridgeID bridgeID) (topic : String) :
    mayRead (topicNamespace tenantID) bridgeID topic =
      (subscribeTokens tenantID bridgeID).any (tokensMatch · (topicTokens topic)) := by
  rw [mayRead, ← subscribe_tokens ht hb, any_map]
  rfl

omit ht in
theorem mem_subscribeTokens {grant : List String} : grant ∈ subscribeTokens tenantID bridgeID ↔
      grant = namespaceLevels tenantID ++ ["bridge", bridgeID, ">"] ∨
      (∃ w ∈ wildcardWords, grant = namespaceLevels tenantID ++ ["*", w, ">"]) ∨
      (tenantID = defaultTenant ∧ grant = namespaceLevels tenantID ++ ["broadcast", ">"]) ∨
      (tenantID ≠ defaultTenant ∧
        grant = namespaceLevels tenantID ++ ["broadcast", "tak", "cot", "in"]) ∨
      (tenantID ≠ defaultTenant ∧
        grant = namespaceLevels tenantID ++ ["broadcast", "tak", "cot", "in", "*"]) ∨
      grant = ["$MQTT", "sub", ">"] := by
  unfold subscribeTokens
  by_cases hd : tenantID = defaultTenant
  · subst hd
    rw [if_pos rfl, namespaceLevels_default]
    simp only [mem_cons, not_mem_nil, or_false, wildcardWords, cons_append, nil_append]
    simp
    tauto
  · rw [if_neg hd]
    simp only [mem_append, mem_cons, not_mem_nil, or_false, wildcardWords]
    simp [hd]
    tauto

omit ht in
theorem tokensMatch_below (words tokens : List String) (h : ∀ p ∈ words, p ≠ "*" ∧ p ≠ ">") :
    tokensMatch (words ++ [">"]) tokens ↔ ∃ x xs, tokens = words ++ x :: xs := by
  rw [tokensMatch_append words [">"] tokens h]
  constructor
  · rintro ⟨rest, rfl, hrest⟩
    cases rest with
    | nil => simp [tokensMatch] at hrest
    | cons x xs => exact ⟨x, xs, rfl⟩
  · rintro ⟨x, xs, rfl⟩
    exact ⟨x :: xs, rfl, rfl⟩

omit ht in
theorem tokensMatch_tak (rest : List String) : tokensMatch ["broadcast", "tak", "cot", "in"] rest ↔
      rest = ["broadcast", "tak", "cot", "in"] := by
  have h := tokensMatch_append ["broadcast", "tak", "cot", "in"] [] rest (by decide)
  rw [append_nil] at h
  rw [h]
  simp [tokensMatch]

omit ht in
theorem tokensMatch_takFrom (rest : List String) :
    tokensMatch ["broadcast", "tak", "cot", "in", "*"] rest ↔
      ∃ d, rest = ["broadcast", "tak", "cot", "in", d] := by
  rw [show ["broadcast", "tak", "cot", "in", "*"] = ["broadcast", "tak", "cot", "in"] ++ ["*"]
    from rfl, tokensMatch_append _ _ _ (by decide)]
  constructor
  · rintro ⟨tail, rfl, htail⟩
    obtain _ | ⟨d, _ | ⟨e, tail⟩⟩ := tail
    · simp [tokensMatch] at htail
    · exact ⟨d, rfl⟩
    · simp [tokensMatch] at htail
  · rintro ⟨d, rfl⟩
    exact ⟨[d], rfl, rfl⟩

omit ht in
/-- The levels after the namespace that some subscribe grant covers. -/
inductive ReadLevels (tenantID bridgeID : String) : List String → Prop
  | own (x : String) (xs : List String) :
      ReadLevels tenantID bridgeID ("bridge" :: bridgeID :: x :: xs)
  | word (d w x : String) (xs : List String) (h : w ∈ wildcardWords) :
      ReadLevels tenantID bridgeID (d :: w :: x :: xs)
  | broadcast (x : String) (xs : List String) (h : tenantID = defaultTenant) :
      ReadLevels tenantID bridgeID ("broadcast" :: x :: xs)
  | tak (h : tenantID ≠ defaultTenant) :
      ReadLevels tenantID bridgeID ["broadcast", "tak", "cot", "in"]
  | takFrom (d : String) (h : tenantID ≠ defaultTenant) :
      ReadLevels tenantID bridgeID ["broadcast", "tak", "cot", "in", d]

omit ht in
theorem ReadLevels.heads (h : ReadLevels tenantID bridgeID rest) :
    ∃ first second more, rest = first :: second :: more ∧
      ((first = "bridge" ∧ second = bridgeID) ∨ second ∈ wildcardWords ∨
        first = "broadcast") := by
  cases h with
  | own x xs => exact ⟨_, _, _, rfl, .inl ⟨rfl, rfl⟩⟩
  | word d w x xs hw => exact ⟨_, _, _, rfl, .inr (.inl hw)⟩
  | broadcast x xs _ | tak _ | takFrom d _ => exact ⟨_, _, _, rfl, .inr (.inr rfl)⟩

theorem mayRead_iff (hb : validBridgeID bridgeID) (topic : String) :
    mayRead (topicNamespace tenantID) bridgeID topic ↔
      (∃ rest, topicTokens topic = namespaceLevels tenantID ++ rest ∧
        ReadLevels tenantID bridgeID rest) ∨
      ∃ x xs, topicTokens topic = "$MQTT" :: "sub" :: x :: xs := by
  have happend := fun grant => tokensMatch_append (namespaceLevels tenantID) grant
    (topicTokens topic) (namespaceLevels_literal ht)
  have hmqtt := tokensMatch_below ["$MQTT", "sub"] (topicTokens topic) (by decide)
  have hword : ∀ w ∈ wildcardWords, w ≠ ">" ∧ w ≠ "*" := by decide
  rw [mayRead_eq ht hb, any_eq_true]
  constructor
  · rintro ⟨grant, hmem, hmatch⟩
    rcases mem_subscribeTokens.1 hmem with
      rfl | ⟨w, hw, rfl⟩ | ⟨hd, rfl⟩ | ⟨hd, rfl⟩ | ⟨hd, rfl⟩ | rfl
    · obtain ⟨rest, htokens, hrest⟩ := (happend _).1 hmatch
      obtain ⟨x, xs, rfl⟩ := (tokensMatch_own hb rest).1 hrest
      exact .inl ⟨_, htokens, .own x xs⟩
    · obtain ⟨rest, htokens, hrest⟩ := (happend _).1 hmatch
      obtain ⟨d, x, xs, rfl⟩ := (tokensMatch_tree (hword w hw).1 (hword w hw).2 rest).1 hrest
      exact .inl ⟨_, htokens, .word d w x xs hw⟩
    · obtain ⟨rest, htokens, hrest⟩ := (happend _).1 hmatch
      obtain ⟨x, xs, rfl⟩ := (tokensMatch_below ["broadcast"] rest (by decide)).1 hrest
      exact .inl ⟨_, htokens, .broadcast x xs hd⟩
    · obtain ⟨rest, htokens, hrest⟩ := (happend _).1 hmatch
      rw [tokensMatch_tak] at hrest
      subst hrest
      exact .inl ⟨_, htokens, .tak hd⟩
    · obtain ⟨rest, htokens, hrest⟩ := (happend _).1 hmatch
      obtain ⟨d, rfl⟩ := (tokensMatch_takFrom rest).1 hrest
      exact .inl ⟨_, htokens, .takFrom d hd⟩
    · exact .inr (hmqtt.1 hmatch)
  · rintro (⟨rest, htokens, hread⟩ | hmatch)
    · cases hread with
      | own x xs =>
        exact ⟨_, mem_subscribeTokens.2 (.inl rfl), (happend _).2
          ⟨_, htokens, (tokensMatch_own hb _).2 ⟨x, xs, rfl⟩⟩⟩
      | word d w x xs hw =>
        exact ⟨_, mem_subscribeTokens.2 (.inr (.inl ⟨w, hw, rfl⟩)), (happend _).2
          ⟨_, htokens, (tokensMatch_tree (hword w hw).1 (hword w hw).2 _).2 ⟨d, x, xs, rfl⟩⟩⟩
      | broadcast x xs hd =>
        exact ⟨_, mem_subscribeTokens.2 (.inr (.inr (.inl ⟨hd, rfl⟩))), (happend _).2
          ⟨_, htokens, (tokensMatch_below ["broadcast"] _ (by decide)).2 ⟨x, xs, rfl⟩⟩⟩
      | tak hd =>
        exact ⟨_, mem_subscribeTokens.2 (.inr (.inr (.inr (.inl ⟨hd, rfl⟩)))), (happend _).2
          ⟨_, htokens, (tokensMatch_tak _).2 rfl⟩⟩
      | takFrom d hd =>
        exact ⟨_, mem_subscribeTokens.2 (.inr (.inr (.inr (.inr (.inl ⟨hd, rfl⟩))))),
          (happend _).2 ⟨_, htokens, (tokensMatch_takFrom _).2 ⟨d, rfl⟩⟩⟩
    · exact ⟨_, mem_subscribeTokens.2 (.inr (.inr (.inr (.inr (.inr rfl))))), hmqtt.2 hmatch⟩

theorem levelToken_namespace :
    (namespaceLevels tenantID).map levelToken = namespaceLevels tenantID := by
  unfold namespaceLevels
  split
  · rfl
  · rw [map_cons, map_cons, levelToken_of_lacks ht.dot]
    rfl

omit ht in
theorem encodeSegment_validBridgeID (hb : validBridgeID bridgeID) :
    encodeSegment bridgeID = bridgeID := by
  have hlacks : ∀ c, encodeChar c ≠ [c] → Lacks c bridgeID := by
    intro c hc
    apply validBridgeID_chars hb
    revert hc
    fun_cases encodeChar c <;> simp_all [identChar]
  have hchars : ∀ l : List Char, (∀ c ∈ l, encodeChar c = [c]) → l.flatMap encodeChar = l := by
    intro l hl
    induction l with
    | nil => rfl
    | cons c rest ih =>
      rw [flatMap_cons, hl c (mem_cons_self ..),
        ih fun d hd => hl d (mem_cons_of_mem c hd), singleton_append]
  have hall : ∀ c ∈ bridgeID.toList, encodeChar c = [c] := by
    intro c hc
    by_contra hne
    exact hlacks c hne hc
  rw [encodeSegment, hchars _ hall, String.ofList_toList]

theorem topicTokens_bridgeTopic (hb : validBridgeID bridgeID) (hs : suffix ∈ hubBridgeSuffixes) :
    ∃ x xs, topicTokens (bridgeTopic tenantID bridgeID suffix) =
      namespaceLevels tenantID ++ "bridge" :: bridgeID :: x :: xs := by
  have hsuffix : ∀ s ∈ hubBridgeSuffixes, (split '/' s).map levelToken ≠ [] := by decide
  obtain ⟨x, xs, hlevels⟩ := exists_cons_of_ne_nil (hsuffix suffix hs)
  refine ⟨x, xs, ?_⟩
  rw [topicTokens, split_bridgeTopic ht.level, map_append, levelToken_namespace ht,
    map_cons, map_cons, hlevels, encodeSegment_validBridgeID hb,
    levelToken_of_lacks (validBridgeID_lacks_dot hb)]
  rfl

omit ht in
theorem levelToken_mem (level : String) :
    levelToken level ∈ wildcardWords ↔ level ∈ wildcardWords := by
  have hlacks : ∀ word ∈ wildcardWords, Lacks '/' word ∧ Lacks '.' word := by decide
  constructor
  · intro h
    obtain ⟨hslash, hdot⟩ := hlacks _ h
    rwa [← (levelToken_eq_iff hslash hdot).1 rfl] at h
  · intro h
    rwa [levelToken_of_lacks (hlacks _ h).2]

omit ht in
theorem encodeSegment_mem (deviceID : String) :
    encodeSegment deviceID ∈ wildcardWords ↔ deviceID ∈ wildcardWords := by
  have hfixed : ∀ word ∈ wildcardWords, encodeSegment word = word := by decide
  constructor
  · intro h
    rwa [encodeSegment_injective (hfixed _ h)] at h
  · intro h
    rwa [hfixed _ h]

theorem topicTokens_deviceTopic (deviceID : String) (hs : isDeviceSuffix suffix) :
    ∃ word x xs, word ∈ wildcardWords ∧ x ∉ wildcardWords ∧
      topicTokens (deviceTopic tenantID deviceID suffix) =
        namespaceLevels tenantID ++ levelToken (encodeSegment deviceID) :: word :: x :: xs := by
  revert hs
  fun_cases isDeviceSuffix suffix with
  | case1 word level rest hlevels =>
    intro hs
    simp only [Bool.and_eq_true, decide_eq_true_eq] at hs
    refine ⟨levelToken word, levelToken level, rest.map levelToken, (levelToken_mem _).2 hs.1,
      mt (levelToken_mem _).1 hs.2, ?_⟩
    rw [topicTokens, split_deviceTopic ht.level, hlevels, map_append, levelToken_namespace ht]
    rfl
  | case2 => nofun

variable {owner : String}

omit ht in
/-- Two topics under namespaces are the same only under the same tenant, or where a level after
the platform's namespace is the other tenant. -/
theorem namespaceLevels_append_eq {rest' : List String}
    (h : namespaceLevels tenantID ++ rest = namespaceLevels owner ++ rest') :
    (tenantID = owner ∧ rest = rest') ∨
      (tenantID = defaultTenant ∧ owner ≠ defaultTenant ∧ rest = owner :: rest') ∨
      (tenantID ≠ defaultTenant ∧ owner = defaultTenant ∧ rest' = tenantID :: rest) := by
  unfold namespaceLevels at h
  by_cases hd : tenantID = defaultTenant
  · by_cases ho : owner = defaultTenant
    · rw [if_pos hd, if_pos ho] at h
      exact .inl ⟨hd.trans ho.symm, (cons.inj h).2⟩
    · rw [if_pos hd, if_neg ho] at h
      exact .inr (.inl ⟨hd, ho, (cons.inj h).2⟩)
  · by_cases ho : owner = defaultTenant
    · rw [if_neg hd, if_pos ho] at h
      exact .inr (.inr ⟨hd, ho, (cons.inj h).2.symm⟩)
    · rw [if_neg hd, if_neg ho] at h
      obtain ⟨htenant, hrest⟩ := cons.inj (cons.inj h).2
      exact .inl ⟨htenant, hrest⟩

theorem TenantId.ne_words : tenantID ≠ "bridge" ∧ tenantID ≠ "broadcast" :=
  ⟨fun h => ht.unreserved (by rw [h]; decide), fun h => ht.unreserved (by rw [h]; decide)⟩

omit ht in
theorem namespaceLevels_append_ne (x : String) (xs : List String) :
    namespaceLevels tenantID ++ rest ≠ "$MQTT" :: "sub" :: x :: xs := by
  unfold namespaceLevels
  split <;> simp

theorem mayRead_bridgeTopic_iff (hb : validBridgeID bridgeID)
    (ho : TenantId owner) {other : String} (hother : validBridgeID other)
    (hne : bridgeID ≠ other) (hs : suffix ∈ hubBridgeSuffixes) :
    mayRead (topicNamespace tenantID) bridgeID (bridgeTopic owner other suffix) ↔
      tenantID = owner ∧ other ∈ wildcardWords := by
  obtain ⟨x, xs, htokens⟩ := topicTokens_bridgeTopic ho hother hs
  obtain ⟨htb, -⟩ := ht.ne_words
  obtain ⟨hob, hoc⟩ := ho.ne_words
  rw [mayRead_iff ht hb, htokens]
  constructor
  · rintro (⟨rest, heq, hread⟩ | ⟨y, ys, heq⟩)
    · obtain ⟨first, second, more, rfl, hheads⟩ := hread.heads
      obtain ⟨rfl, hrest⟩ | ⟨-, -, hrest⟩ | ⟨-, -, hrest⟩ := namespaceLevels_append_eq heq.symm
      · injection hrest with hfirst hrest
        injection hrest with hsecond
        subst hfirst hsecond
        obtain ⟨-, hid⟩ | hword | hbroadcast := hheads
        · exact absurd hid.symm hne
        · exact ⟨rfl, hword⟩
        · exact absurd hbroadcast (by decide)
      · injection hrest with hfirst hrest
        injection hrest with hsecond
        subst hfirst hsecond
        obtain ⟨hbridge, -⟩ | hword | hbroadcast := hheads
        · exact absurd hbridge hob
        · exact absurd hword (by decide)
        · exact absurd hbroadcast hoc
      · exact absurd (cons.inj hrest).1.symm htb
    · exact absurd heq (namespaceLevels_append_ne y ys)
  · rintro ⟨rfl, hword⟩
    exact .inl ⟨_, rfl, .word "bridge" other x xs hword⟩

theorem mayRead_deviceTopic_iff (hb : validBridgeID bridgeID)
    (ho : TenantId owner) (hne : tenantID ≠ owner) (deviceID : String)
    (hs : isDeviceSuffix suffix) :
    mayRead (topicNamespace tenantID) bridgeID (deviceTopic owner deviceID suffix) ↔
      tenantID = defaultTenant ∧ deviceID ∈ wildcardWords := by
  obtain ⟨word, x, xs, hword, hx, htokens⟩ := topicTokens_deviceTopic ho deviceID hs
  obtain ⟨hob, hoc⟩ := ho.ne_words
  rw [mayRead_iff ht hb, htokens, ← encodeSegment_mem, ← levelToken_mem]
  constructor
  · rintro (⟨rest, heq, hread⟩ | ⟨y, ys, heq⟩)
    · obtain ⟨first, second, more, rfl, hheads⟩ := hread.heads
      obtain ⟨rfl, -⟩ | ⟨hd, -, hrest⟩ | ⟨-, -, hrest⟩ := namespaceLevels_append_eq heq.symm
      · exact absurd rfl hne
      · injection hrest with hfirst hrest
        injection hrest with hsecond
        subst hfirst hsecond
        obtain ⟨hbridge, -⟩ | hdevice | hbroadcast := hheads
        · exact absurd hbridge hob
        · exact ⟨hd, hdevice⟩
        · exact absurd hbroadcast hoc
      · -- The device is called like the customer whose bridge reads.
        injection hrest with _ hrest
        injection hrest with hfirst hrest
        injection hrest with hsecond
        subst hfirst hsecond
        obtain ⟨rfl, -⟩ | hsecond | rfl := hheads
        · exact absurd hword (by decide)
        · exact absurd hsecond hx
        · exact absurd hword (by decide)
    · exact absurd heq (namespaceLevels_append_ne y ys)
  · rintro ⟨rfl, hdevice⟩
    refine .inl ⟨owner :: levelToken (encodeSegment deviceID) :: word :: x :: xs, ?_, ?_⟩
    · have hod : owner ≠ defaultTenant := fun h => hne h.symm
      rw [namespaceLevels_customer hod]
      rfl
    · exact .word owner _ word (x :: xs) hdevice

end

theorem forall_subscribe_iff (ns bridgeID topic : String) :
    (∀ grant ∈ (natsPermissions ns bridgeID).subscribe, subscriptionMatches grant topic = false) ↔
      ¬ mayRead ns bridgeID topic := by
  rw [mayRead, any_eq_true, not_exists]
  simp only [not_and, Bool.not_eq_true]

/-- What the Hub publishes for a bridge is matched by no grant of another one exactly where the
two are of different tenants or the first is not called like a word after a wildcard; and what
goes to a device of another tenant by no grant exactly where the reader is not of the platform
or the device is not called so. -/
theorem hub_topics_unread_iff (ht : TenantId tenantID) (hb : validBridgeID bridgeID = true)
    (ho : TenantId owner) :
    (∀ other suffix, validBridgeID other = true → bridgeID ≠ other →
      suffix ∈ hubBridgeSuffixes →
        ((∀ grant ∈ (natsPermissions (topicNamespace tenantID) bridgeID).subscribe,
          subscriptionMatches grant (bridgeTopic owner other suffix) = false) ↔
            ¬ (tenantID = owner ∧ other ∈ wildcardWords))) ∧
    (tenantID ≠ owner → ∀ deviceID suffix, isDeviceSuffix suffix →
      ((∀ grant ∈ (natsPermissions (topicNamespace tenantID) bridgeID).subscribe,
        subscriptionMatches grant (deviceTopic owner deviceID suffix) = false) ↔
          ¬ (tenantID = defaultTenant ∧ deviceID ∈ wildcardWords))) := by
  constructor
  · intro other suffix hother hne hs
    rw [forall_subscribe_iff, mayRead_bridgeTopic_iff ht hb ho hother hne hs]
  · intro hne deviceID suffix hs
    rw [forall_subscribe_iff, mayRead_deviceTopic_iff ht hb ho hne deviceID hs]

/-- Two kits of one customer. -/
theorem hub_topics_unread_kits :
    TenantId "acme" ∧ validBridgeID "kit1" = true ∧ validBridgeID "kit2" = true ∧
      ∀ grant ∈ (natsPermissions (topicNamespace "acme") "kit1").subscribe,
        subscriptionMatches grant (bridgeTopic "acme" "kit2" "rns/access") = false := by
  have ht : TenantId "acme" := by decide
  have hb : validBridgeID "kit1" := by decide
  have hother : validBridgeID "kit2" := by decide
  refine ⟨ht, hb, hother, ?_⟩
  exact ((hub_topics_unread_iff ht hb ht).1 "kit2" "rns/access" hother (by decide) (by decide)).2
    (by decide)

/-- The passphrase for a bridge called `config` goes to every bridge of its tenant, and a
message to a customer's device called `mt` to every bridge of the platform. -/
theorem wildcard_grants_read_hub_topics :
    TenantId "acme" ∧ validBridgeID "kit1" = true ∧ validBridgeID "config" = true ∧
      mayRead (topicNamespace "acme") "kit1" (bridgeTopic "acme" "config" "rns/access") = true ∧
      mayRead (topicNamespace defaultTenant) "kit1" (deviceTopic "acme" "mt" "mt/send") =
        true := by
  decide +kernel

end MeshsatHub.Topics
