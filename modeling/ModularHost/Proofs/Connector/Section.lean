import ModularHost.Proofs.Settings.RoundTrip
/-!
# Sections pass on what they do not know

A section is read from an object whose keys with a meaning each have a text, or null for none
(`ConnectorSection.Acceptable`), and from no other. Whatever stands under any other key is kept with
all that is in it. So an object that has been read as a section and is written again is the same but
for the nulls under keys with a meaning (`ConnectorSection.passes_on`), and from then on it does not
change any more.
-/


namespace ModularHost

open Json.Decoder

namespace ConnectorSection

variable {ms : List (String × Json)} {s : ConnectorSection} {key : String}

/-! ## What an object says -/

/-- Whether a key has a meaning. -/
def hasMeaning (key : String) : Bool := fields.any (·.name == key)

/-- A null under a key with a meaning. It says as much as no member would. -/
def isIdle : String × Json → Bool
  | (key, .null) => hasMeaning key
  | _ => false

/-- **What the keys with a meaning may have**: a text, or null for none. -/
def Acceptable (ms : List (String × Json)) : Prop :=
  ∀ (key : SectionKey) (v : Json), ms.lookup key.name = some v → v = .null ∨ ∃ t, v = .str t

/-- **Members describe a section**: its keys with a meaning, and all others as they stand for
values. -/
structure Described (ms : List (String × Json)) (s : ConnectorSection) : Prop where
  named : ∀ key : SectionKey,
    (ms.lookup key.name).getD .null = ((s.value key).map .str).getD .null
  settings : s.settings = sortMembers (Json.normalMembers (unclaimed fields ms))

theorem hasMeaning_name (key : SectionKey) : hasMeaning key.name = true := by
  cases key <;> decide

theorem exists_key_of_hasMeaning (h : hasMeaning key = true) :
    ∃ k : SectionKey, key = k.name := by
  obtain ⟨f, hf, hname⟩ := List.any_eq_true.1 h
  obtain ⟨k, hk⟩ := exists_key_of_mem_fields hf
  exact ⟨k, (beq_iff_eq.1 hname).symm.trans hk⟩

theorem isIdle_iff {v : Json} : isIdle (key, v) = true ↔ hasMeaning key = true ∧ v = .null := by
  cases v <;> simp [isIdle]

/-! ## Reading -/

theorem exact_field : (optional string).Exact fun v => (v.map Json.str).getD .null :=
  exact_optional (exact_text _) fun _ => Json.noConfusion

/-- **An object without repeated keys is read as the section that its members describe.** -/
theorem decode_eq_ok_iff (hnodup : (ms.map (·.1)).Nodup) :
    decoder.decode (.obj ms) = .ok s ↔ Described ms s := by
  have hgiven : ∀ (key : SectionKey) (v : Option String),
      Given .json (optional string) none (ms.lookup key.name) v ↔
        (ms.lookup key.name).getD .null = (v.map Json.str).getD .null :=
    fun key v => exact_field.given_iff
  refine (openRecord_iff_taken independent_fields hnodup).trans ?_
  constructor
  · rintro ⟨a, htaken, hfinish⟩
    obtain ⟨implementation, himplementation, htaken⟩ := (taken_absentable none (by rfl)).1 htaken
    obtain ⟨authType, hauthType, htaken⟩ := (taken_absentable none (by rfl)).1 htaken
    obtain ⟨username, husername, htaken⟩ := (taken_absentable none (by rfl)).1 htaken
    obtain ⟨password, hpassword, rfl⟩ := (taken_absentable none (by rfl)).1 htaken
    cases hfinish
    refine ⟨fun key => ?_, rfl⟩
    cases key with
    | implementation => exact (hgiven .implementation _).1 himplementation
    | authType => exact (hgiven .authType _).1 hauthType
    | username => exact (hgiven .username _).1 husername
    | password => exact (hgiven .password _).1 hpassword
  · intro h
    refine ⟨{ s with settings := [] }, ?_, ?_⟩
    · refine (taken_absentable none (by rfl)).2 ⟨_, (hgiven .implementation _).2 (h.named _), ?_⟩
      refine (taken_absentable none (by rfl)).2 ⟨_, (hgiven .authType _).2 (h.named _), ?_⟩
      refine (taken_absentable none (by rfl)).2 ⟨_, (hgiven .username _).2 (h.named _), ?_⟩
      exact (taken_absentable none (by rfl)).2 ⟨_, (hgiven .password _).2 (h.named _), rfl⟩
    · refine congrArg Except.ok ?_
      dsimp only
      rw [← h.settings]

/-- **What is acceptable describes a section**, and nothing else does. -/
theorem exists_described_iff : (∃ s, Described ms s) ↔ Acceptable ms := by
  constructor
  · rintro ⟨s, h⟩ key v hv
    have hnamed := h.named key
    rw [hv, Option.getD_some] at hnamed
    cases hvalue : s.value key with
    | none => exact .inl (by simpa [hvalue] using hnamed)
    | some t => exact .inr ⟨t, by simpa [hvalue] using hnamed⟩
  · intro h
    have hvalue : ∀ key : SectionKey, ∃ v : Option String,
        (ms.lookup key.name).getD .null = (v.map Json.str).getD .null := by
      intro key
      cases hlookup : ms.lookup key.name with
      | none => exact ⟨none, rfl⟩
      | some w =>
        rcases h key w hlookup with rfl | ⟨t, rfl⟩
        · exact ⟨none, rfl⟩
        · exact ⟨some t, rfl⟩
    choose value hnamed using hvalue
    exact ⟨⟨value .implementation, value .authType, value .username, value .password, _⟩,
      fun key => by cases key <;> exact hnamed _, rfl⟩

/-! ## Writing what has been read -/

namespace Described

variable (h : Described ms s)
include h

/-- A section that is described by an object keeps a map. -/
theorem proper : s.Proper := by
  have hrest : ∀ m ∈ unclaimed fields ms, ∀ f ∈ fields, f.name ≠ m.1 := by
    intro m hm f hf
    have hnot := (List.mem_filter.1 hm).2
    simp only [Bool.not_eq_true', List.any_eq_false] at hnot
    simpa using hnot f hf
  have hproper := proper_of_rest hrest s
  rwa [← h.settings] at hproper

/-- A key without a meaning is kept with its value. -/
theorem lookup_settings (hnodup : (ms.map (·.1)).Nodup) (hkey : hasMeaning key = false) :
    s.settings.lookup key = (ms.lookup key).map Json.normal := by
  have hrest : ((Json.normalMembers (unclaimed fields ms)).map (·.1)).Nodup := by
    rw [Json.map_fst_normalMembers]
    exact nodup_keys_unclaimed hnodup
  have hfree : ∀ f ∈ fields, f.name ≠ key := by
    intro f hf heq
    have hmeaning : hasMeaning key = true := List.any_eq_true.2 ⟨f, hf, by simpa using heq⟩
    rw [hkey] at hmeaning
    cases hmeaning
  rw [h.settings, ← lookup_perm hrest (sortMembers_perm hrest).symm, Json.lookup_normalMembers,
    lookup_unclaimed hfree]

/-- **Under each key the section has what the object says**: what it had, without idle nulls. -/
theorem lookup_written (hnodup : (ms.map (·.1)).Nodup) (key : String) :
    (s.named ++ s.settings).lookup key =
      (Json.normalMembers (ms.filter (!isIdle ·))).lookup key := by
  rw [Json.lookup_normalMembers, lookup_filter_of_nodup hnodup]
  cases hkey : hasMeaning key with
  | true =>
    obtain ⟨k, rfl⟩ := exists_key_of_hasMeaning hkey
    have hnamed := h.named k
    rw [h.proper.lookup_members]
    cases hlookup : ms.lookup k.name with
    | none =>
      cases hvalue : s.value k with
      | none => rfl
      | some t => simp [hlookup, hvalue] at hnamed
    | some v =>
      cases hvalue : s.value k with
      | none =>
        obtain rfl : v = .null := by simpa [hlookup, hvalue] using hnamed
        rw [Option.filter_some_neg (by simp [isIdle_iff, hkey])]
        rfl
      | some t =>
        obtain rfl : v = .str t := by simpa [hlookup, hvalue] using hnamed
        rw [Option.filter_some_pos (by simp [isIdle])]
        rfl
  | false =>
    have hnamed : s.named.lookup key = none := lookup_eq_none_of_not_mem fun hmem => by
      obtain ⟨m, hm, rfl⟩ := List.mem_map.1 hmem
      obtain ⟨k, hk⟩ := exists_key_of_mem_named hm
      rw [hk, hasMeaning_name] at hkey
      cases hkey
    rw [List.lookup_append, hnamed, Option.none_or, h.lookup_settings hnodup hkey]
    cases ms.lookup key with
    | none => rfl
    | some v =>
      have hkept : ¬ isIdle (key, v) = true := fun hidle => by
        rw [(isIdle_iff.1 hidle).1] at hkey
        cases hkey
      rw [Option.filter_some_pos (by simpa using hkept)]

/-- **So it is written as what the object says.** -/
theorem toJson_eq (hnodup : (ms.map (·.1)).Nodup) :
    s.toJson = (Json.obj (ms.filter (!isIdle ·))).normal := by
  have hsaid : ((Json.normalMembers (ms.filter (!isIdle ·))).map (·.1)).Nodup := by
    rw [Json.map_fst_normalMembers]
    exact nodup_keys_filter hnodup _
  have hperm : (s.named ++ s.settings).Perm (Json.normalMembers (ms.filter (!isIdle ·))) :=
    perm_of_lookup h.proper.nodup_members hsaid (h.lookup_written hnodup)
  exact congrArg Json.obj (sortMembers_congr h.proper.nodup_members hperm)

end Described

/-- **A section passes on what it does not know.** An object without repeated keys is read as a
section exactly if each of its keys with a meaning has a text, or null for none. Written again, it
has all its members, with everything in them, but for the nulls under those keys; an object as it is
held, in order and without anything that JSON cannot write, is changed in nothing else. And what has
been written is read as the same section again. -/
theorem passes_on (hnodup : (ms.map (·.1)).Nodup) :
    ((∃ s, decoder.decode (.obj ms) = .ok s) ↔ Acceptable ms) ∧
    ∀ s, decoder.decode (.obj ms) = .ok s →
      s.toJson = (Json.obj (ms.filter (!isIdle ·))).normal ∧
      ((Json.obj ms).normal = .obj ms → s.toJson = .obj (ms.filter (!isIdle ·))) ∧
      decoder.decode s.toJson = .ok s := by
  refine ⟨by simp only [decode_eq_ok_iff hnodup, exists_described_iff], fun s hs => ?_⟩
  have hdescribed : Described ms s := (decode_eq_ok_iff hnodup).1 hs
  have hwritten := hdescribed.toJson_eq hnodup
  refine ⟨hwritten, fun hnormal => ?_, hdescribed.proper.decode_toJson⟩
  obtain ⟨hordered, hvalues⟩ := Json.normal_obj_eq_self_iff.1 hnormal
  rw [hwritten]
  exact Json.normal_obj_eq_self_iff.2
    ⟨hordered.sublist List.filter_sublist, fun m hm => hvalues m (List.mem_of_mem_filter hm)⟩

/-- Members with nulls under a key with a meaning, under one without and below it. -/
def looseSection : List (String × Json) :=
  [("auth_type", .null), ("cache_size", .int 64), ("depth", .null),
   ("implementation", .str "MemoryAssetService"),
   ("limits", .obj [("auth_type", .null), ("rows", .arr [.null, .int (-1), .bool true])])]

theorem passes_on_looseSection :
    (looseSection.map (·.1)).Nodup ∧ Acceptable looseSection ∧
    ∃ s, decoder.decode (.obj looseSection) = .ok s ∧ s.toJson = .obj looseSection.tail ∧
      decoder.decode s.toJson = .ok s := by
  have hnodup : (looseSection.map (·.1)).Nodup := by decide
  obtain ⟨hiff, hread⟩ := passes_on hnodup
  obtain ⟨s, hs⟩ : ∃ s, decoder.decode (.obj looseSection) = .ok s := ⟨_, rfl⟩
  obtain ⟨-, hwritten, hagain⟩ := hread s hs
  exact ⟨hnodup, hiff.1 ⟨s, hs⟩, s, hs, hwritten rfl, hagain⟩

end ConnectorSection

end ModularHost
