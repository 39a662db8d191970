import Mathlib.Data.List.Forall2
import ModularHost.Json.Decoder
import ModularHost.Proofs.Json.Members
import ModularHost.Proofs.Json.Scanning
/-!
# Records field by field

A record is taken from an object member by member, in the order in which these stand. Where no key
is repeated it could as well be taken field by field, each from the member of its name, as long as
no two fields touch the same part of the record (`recordOfMembers_iff_taken`). So what a record is
depends on what its fields are looked up as, and on nothing else of the object (`taken_congr`).
-/


namespace ModularHost

namespace Json.Decoder

variable {α β γ : Type} {dialect : Dialect} {v : Json}

/-! ## What decoders take -/

/-- A decoder takes what a value is written as, and nothing else. -/
def Exact (d : Decoder β) (written : β → Json) : Prop :=
  ∀ dialect v b, d.ofTree dialect v = .ok b ↔ v = written b

theorem exact_text (wanted : String) : (text wanted).Exact .str := by
  intro dialect v s
  cases v <;> simp [text, scalar]

theorem exact_bool : bool.Exact .bool := by
  intro dialect v b
  cases v <;> simp [bool, scalar]

theorem integer_ofTree_eq_ok_iff {least greatest n : Int} {wanted : String} :
    (integer least greatest wanted).ofTree dialect v = .ok n ↔
      v = .int n ∧ least ≤ n ∧ n ≤ greatest := by
  cases v with
  | int i =>
    by_cases hi : least ≤ i ∧ i ≤ greatest
    · simp only [integer, scalar, if_pos hi, Except.ok.injEq, Json.int.injEq]
      exact ⟨fun h => ⟨h, h ▸ hi⟩, fun h => h.1⟩
    · simp only [integer, scalar, if_neg hi, reduceCtorEq, Json.int.injEq, false_iff]
      exact fun h => hi (h.1 ▸ h.2)
  | null | bool | real | str | arr | obj | date => simp [integer, scalar]

/-- Decoding some things, which succeeds where each of them does. -/
theorem mapM_eq_ok_iff {ε α β : Type} {f : α → Except ε β} {as : List α} {bs : List β} :
    as.mapM f = .ok bs ↔ List.Forall₂ (fun a b => f a = .ok b) as bs := by
  induction as generalizing bs with
  | nil => simp [pure, Except.pure, eq_comm]
  | cons a as ih =>
    rw [List.mapM_cons, List.forall₂_cons_left_iff]
    simp only [← ih]
    cases ha : f a with
    | error e => simp [bind, Except.bind]
    | ok b =>
      cases has : as.mapM f with
      | error e => simp [bind, Except.bind]
      | ok bs' => simp [bind, Except.bind, pure, Except.pure, eq_comm]

/-- What each result of a step is, all the results are. -/
theorem forall_mem_of_mapM {ε α β : Type} {f : α → Except ε β} {P : β → Prop}
    (hf : ∀ a b, f a = .ok b → P b) {as : List α} {bs : List β} (h : as.mapM f = .ok bs) :
    ∀ b ∈ bs, P b := by
  have hall : List.Forall₂ (fun b a => P b ∧ f a = .ok b) bs as :=
    ((mapM_eq_ok_iff.1 h).imp fun a b hb => ⟨hf a b hb, hb⟩).flip
  exact ((List.forall₂_and_left _ _).1 hall).1

theorem list_ofTree_eq_ok_iff {d : Decoder α} {as : List α} :
    (list d).ofTree dialect v = .ok as ↔
      ∃ items, v = .arr items ∧
        List.Forall₂ (fun item a => d.ofTree dialect item = .ok a) items as := by
  cases v with
  | arr items => simp [list, mapM_eq_ok_iff]
  | null | bool | int | real | str | obj | date => simp [list]

theorem exact_list {d : Decoder β} {written : β → Json} (h : d.Exact written) :
    (list d).Exact fun bs => .arr (bs.map written) := by
  intro dialect v bs
  simp only [list_ofTree_eq_ok_iff, h dialect]
  constructor
  · rintro ⟨items, rfl, hitems⟩
    have hmap : List.Forall₂ (· = ·) items (bs.map written) := List.forall₂_map_right_iff.2 hitems
    rw [List.forall₂_eq_eq_eq] at hmap
    rw [hmap]
  · rintro rfl
    refine ⟨_, rfl, ?_⟩
    rw [List.forall₂_map_left_iff]
    exact List.forall₂_same.2 fun b _ => rfl

theorem exact_optional {d : Decoder β} {written : β → Json} (h : d.Exact written)
    (hnull : ∀ b, written b ≠ .null) :
    (optional d).Exact fun b => (b.map written).getD .null := by
  intro dialect v b
  by_cases hv : v = .null
  · subst hv
    cases b with
    | none => simp [optional]
    | some b => simpa [optional] using (hnull b).symm
  · have hsome : (optional d).ofTree dialect v = (d.ofTree dialect v).map some := by
      cases v with
      | null => exact absurd rfl hv
      | bool | int | real | str | arr | obj | date => rfl
    rw [hsome, map_eq_ok_iff]
    cases b with
    | none => simp [hv]
    | some b => simp [h dialect]

/-! ## Fields -/

/-- What the members of an object do to a field: the change that the member of its name makes, or
none if there is no such member and need not be. -/
inductive RecordField.Effect (f : RecordField α) (dialect : Dialect) (ms : List (String × Json)) :
    (α → α) → Prop
  | given {w : Json} {change : α → α} : ms.lookup f.name = some w →
    f.value.ofTree dialect w = .ok change → Effect f dialect ms change
  | absent : ms.lookup f.name = none → f.required = false → Effect f dialect ms id

/-- The fields taken one after the other, each from the member of its name. -/
def Taken (dialect : Dialect) (ms : List (String × Json)) : List (RecordField α) → α → α → Prop
  | [], a, b => b = a
  | f :: fields, a, b =>
    ∃ change, f.Effect dialect ms change ∧ Taken dialect ms fields (change a) b

/-- It is all the same which of two fields is taken first. -/
def RecordField.Apart (f g : RecordField α) : Prop :=
  ∀ dialect w w' change change', f.value.ofTree dialect w = .ok change →
    g.value.ofTree dialect w' = .ok change' → ∀ a, change (change' a) = change' (change a)

/-- Fields of different names that touch different parts. -/
structure Independent (fields : List (RecordField α)) : Prop where
  names : (fields.map (·.name)).Nodup
  apart : fields.Pairwise RecordField.Apart

theorem RecordField.apart_of_set {name name' : String} {required required' : Bool} {d : Decoder β}
    {d' : Decoder γ} {set : β → α → α} {set' : γ → α → α}
    (h : ∀ b c a, set b (set' c a) = set' c (set b a)) :
    RecordField.Apart ⟨name, required, d.map set⟩ ⟨name', required', d'.map set'⟩ := by
  intro dialect w w' change change' hchange hchange' a
  obtain ⟨b, -, rfl⟩ := map_eq_ok_iff.1 hchange
  obtain ⟨c, -, rfl⟩ := map_eq_ok_iff.1 hchange'
  exact h b c a

variable {ms ms' : List (String × Json)} {f : RecordField α} {fields fields' : List (RecordField α)}
  {a b : α}

theorem RecordField.Effect.comm {g : RecordField α} (hapart : g.Apart f) {change change' : α → α}
    (hf : f.Effect dialect ms change) (hg : g.Effect dialect ms change') (a : α) :
    change (change' a) = change' (change a) := by
  cases hf with
  | absent => rfl
  | given _ hf =>
    cases hg with
    | absent => rfl
    | given _ hg => exact (hapart _ _ _ _ _ hg hf a).symm

theorem RecordField.effect_congr (h : ms.lookup f.name = ms'.lookup f.name) {change : α → α} :
    f.Effect dialect ms change ↔ f.Effect dialect ms' change := by
  constructor
  · rintro (⟨hw, hchange⟩ | ⟨hnone, hreq⟩)
    · exact .given (h ▸ hw) hchange
    · exact .absent (h ▸ hnone) hreq
  · rintro (⟨hw, hchange⟩ | ⟨hnone, hreq⟩)
    · exact .given (h ▸ hw) hchange
    · exact .absent (h ▸ hnone) hreq

/-- A member is there for the field, so it counts. -/
theorem RecordField.effect_iff {w : Json} (h : ms.lookup f.name = some w) {change : α → α} :
    f.Effect dialect ms change ↔ f.value.ofTree dialect w = .ok change := by
  refine ⟨?_, .given h⟩
  rintro (⟨hw, hchange⟩ | ⟨hnone, -⟩)
  · rw [h, Option.some.injEq] at hw
    exact hw ▸ hchange
  · rw [h] at hnone
    cases hnone

/-- **Only what the fields are looked up as counts.** -/
theorem taken_congr (h : ∀ f ∈ fields, ms.lookup f.name = ms'.lookup f.name) :
    Taken dialect ms fields a b ↔ Taken dialect ms' fields a b := by
  induction fields generalizing a with
  | nil => exact Iff.rfl
  | cons f fields ih =>
    obtain ⟨hf, hfields⟩ := List.forall_mem_cons.1 h
    simp only [Taken, RecordField.effect_congr hf, ih hfields]

/-- A field can be taken before those in front of it. -/
theorem taken_middle (h : ∀ g ∈ fields, g.Apart f) :
    Taken dialect ms (fields ++ f :: fields') a b ↔
      ∃ change, f.Effect dialect ms change ∧
        Taken dialect ms (fields ++ fields') (change a) b := by
  induction fields generalizing a with
  | nil => exact Iff.rfl
  | cons g fields ih =>
    obtain ⟨hg, hfields⟩ := List.forall_mem_cons.1 h
    simp only [List.cons_append, Taken, ih hfields]
    constructor
    · rintro ⟨change', hchange', change, hchange, hrest⟩
      exact ⟨change, hchange, change', hchange', hchange.comm hg hchange' a ▸ hrest⟩
    · rintro ⟨change, hchange, change', hchange', hrest⟩
      exact ⟨change', hchange', change, hchange, (hchange.comm hg hchange' a).symm ▸ hrest⟩

/-- Of an object without members only fields that may be absent are taken. -/
theorem taken_nil_iff :
    Taken dialect [] fields a b ↔ (∀ f ∈ fields, f.required = false) ∧ b = a := by
  induction fields generalizing a with
  | nil => simp [Taken]
  | cons f fields ih =>
    simp only [Taken, ih, List.forall_mem_cons]
    constructor
    · rintro ⟨change, ⟨⟨⟩, -⟩ | ⟨-, hf⟩, hfields, rfl⟩
      exact ⟨⟨hf, hfields⟩, rfl⟩
    · rintro ⟨⟨hf, hfields⟩, rfl⟩
      exact ⟨id, .absent rfl hf, hfields, rfl⟩

/-! ## Records -/

theorem checkPresent_eq_ok_iff {seen : List String} :
    checkPresent fields seen = .ok () ↔ ∀ f ∈ fields, f.required = true → f.name ∈ seen := by
  unfold checkPresent
  cases hfind : fields.find? fun f => f.required && !seen.contains f.name with
  | none => simpa using hfind
  | some f =>
    have hf := List.find?_some hfind
    have hmem := List.mem_of_find?_eq_some hfind
    simp only [Bool.and_eq_true, Bool.not_eq_true', List.contains_eq_mem,
      decide_eq_false_iff_not] at hf
    simpa using ⟨f, hmem, hf⟩

/-- The fields that are still to come once some have been seen. -/
def unseen (fields : List (RecordField α)) (seen : List String) : List (RecordField α) :=
  fields.filter fun f => !seen.contains f.name

/-- Taking a field leaves the others to come. -/
theorem unseen_middle {seen : List String} (hnames : ((fields ++ f :: fields').map (·.name)).Nodup)
    (hf : f.name ∉ seen) :
    unseen (fields ++ f :: fields') seen = unseen fields seen ++ f :: unseen fields' seen ∧
      unseen (fields ++ f :: fields') (f.name :: seen) =
        unseen fields seen ++ unseen fields' seen := by
  have hothers : ∀ gs : List (RecordField α), f.name ∉ gs.map (·.name) →
      unseen gs (f.name :: seen) = unseen gs seen := by
    intro gs hgs
    refine List.filter_congr fun g hg => ?_
    have hne : g.name ≠ f.name := fun heq => hgs (heq ▸ List.mem_map_of_mem hg)
    simp [hne]
  rw [List.map_append, List.map_cons, List.nodup_append] at hnames
  obtain ⟨-, hcons, hdisjoint⟩ := hnames
  have hbefore : f.name ∉ fields.map (·.name) :=
    fun hmem => hdisjoint _ hmem _ List.mem_cons_self rfl
  have hafter : f.name ∉ fields'.map (·.name) := (List.nodup_cons.1 hcons).1
  constructor
  · simp [unseen, hf]
  · rw [← hothers fields hbefore, ← hothers fields' hafter]
    simp [unseen]

/-- A draft filled in from members, with nothing missing in the end. -/
def Filled (fields : List (RecordField α)) (dialect : Dialect) (ms : List (String × Json))
    (draft : Draft α) (b : α) : Prop :=
  ∃ filled, ms.foldlM (takeMember fields dialect) draft = .ok filled ∧
    checkPresent fields filled.2 = .ok () ∧ filled.1 = b

variable {key : String} {seen : List String} {w : Json}

/-- Without members, what is missing is what had not been seen. -/
theorem filled_nil_iff :
    Filled fields dialect [] (a, seen) b ↔ Taken dialect [] (unseen fields seen) a b := by
  simp only [Filled, List.foldlM_nil, taken_nil_iff, pure, Except.pure, Except.ok.injEq,
    exists_eq_left', checkPresent_eq_ok_iff, unseen, List.mem_filter]
  constructor
  · rintro ⟨hseen, rfl⟩
    refine ⟨fun f hf => ?_, rfl⟩
    by_contra hreq
    simpa [hseen f hf.1 (by simpa using hreq)] using hf.2
  · rintro ⟨hunseen, rfl⟩
    refine ⟨fun f hf hreq => ?_, rfl⟩
    by_contra hnot
    have hfalse := hunseen f ⟨hf, by simpa using hnot⟩
    rw [hreq] at hfalse
    cases hfalse

/-- A member that is no field is passed over. -/
theorem filled_cons_of_stranger (h : ∀ f ∈ fields, f.name ≠ key) {draft : Draft α} :
    Filled fields dialect ((key, w) :: ms) draft b ↔ Filled fields dialect ms draft b := by
  have hfind : fields.find? (·.name == key) = none := by simpa using h
  have hpass : takeMember fields dialect draft (key, w) = .ok draft := by rw [takeMember, hfind]
  rw [Filled, List.foldlM_cons, hpass, ok_bind, Filled]

/-- A member that is a field makes the field's change, and the field has been seen. -/
theorem filled_cons_of_field (hfind : fields.find? (·.name == f.name) = some f)
    (hnew : f.name ∉ seen) :
    Filled fields dialect ((f.name, w) :: ms) (a, seen) b ↔
      ∃ change, f.value.ofTree dialect w = .ok change ∧
        Filled fields dialect ms (change a, f.name :: seen) b := by
  have htake : takeMember fields dialect (a, seen) (f.name, w) =
      f.value.ofTree dialect w >>= fun change => .ok (change a, f.name :: seen) := by
    rw [takeMember, hfind]
    simp [hnew]
    rfl
  rw [Filled, List.foldlM_cons, htake]
  cases f.value.ofTree dialect w with
  | error e => simp [bind, Except.bind]
  | ok change => simp only [ok_bind, Except.ok.injEq, exists_eq_left', Filled]

/-- A member counts for the fields of its name only. -/
theorem taken_cons_of_stranger (h : ∀ f ∈ fields, f.name ≠ key) :
    Taken dialect ((key, w) :: ms) fields a b ↔ Taken dialect ms fields a b := by
  refine taken_congr fun f hf => ?_
  have hbeq : (f.name == key) = false := by simpa using h f hf
  rw [List.lookup_cons, hbeq]

/-- A field that is still to come can be taken first, from the member of its name. -/
theorem taken_cons_of_field (hfields : Independent fields) (hf : f ∈ fields)
    (hnew : f.name ∉ seen) :
    Taken dialect ((f.name, w) :: ms) (unseen fields seen) a b ↔
      ∃ change, f.value.ofTree dialect w = .ok change ∧
        Taken dialect ms (unseen fields (f.name :: seen)) (change a) b := by
  -- the record's own order of fields puts others in front of it, from which it is apart
  obtain ⟨before, after, rfl⟩ := List.append_of_mem hf
  obtain ⟨hsplit, hleft⟩ := unseen_middle hfields.names hnew
  have hapart : ∀ g ∈ unseen before seen, g.Apart f := fun g hg =>
    (List.pairwise_append.1 hfields.apart).2.2 g (List.mem_of_mem_filter hg) f List.mem_cons_self
  have hothers : ∀ g ∈ unseen (before ++ f :: after) (f.name :: seen), g.name ≠ f.name := by
    intro g hg heq
    have hunseen := List.of_mem_filter hg
    simp [heq] at hunseen
  have hlookup : ((f.name, w) :: ms).lookup f.name = some w := by simp
  rw [hsplit, taken_middle hapart, ← hleft]
  simp only [RecordField.effect_iff hlookup, taken_cons_of_stranger hothers]

/-- Filling in member by member is taking the fields that had not been seen one by one. -/
theorem filled_iff_taken (hfields : Independent fields) (hnodup : (ms.map (·.1)).Nodup)
    (hnew : ∀ m ∈ ms, m.1 ∉ seen) :
    Filled fields dialect ms (a, seen) b ↔ Taken dialect ms (unseen fields seen) a b := by
  -- member by member: each one that is a field moves it from what is to come to what was seen
  induction ms generalizing seen a with
  | nil => exact filled_nil_iff
  | cons m rest ih =>
    obtain ⟨key, w⟩ := m
    obtain ⟨hfresh, hrest⟩ := List.nodup_cons.1 hnodup
    obtain ⟨hkey, hlater⟩ := List.forall_mem_cons.1 hnew
    dsimp only at hfresh hkey
    cases hfind : fields.find? (·.name == key) with
    | none =>
      have hnone : ∀ f ∈ fields, f.name ≠ key := by simpa using hfind
      have hnone' : ∀ f ∈ unseen fields seen, f.name ≠ key :=
        fun f hf => hnone f (List.mem_of_mem_filter hf)
      rw [filled_cons_of_stranger hnone, taken_cons_of_stranger hnone']
      exact ih hrest hlater
    | some f =>
      obtain rfl : f.name = key := by simpa using List.find?_some hfind
      have hnew' : ∀ m ∈ rest, m.1 ∉ f.name :: seen := fun m hm =>
        List.not_mem_cons_of_ne_of_not_mem (fun heq => hfresh (heq ▸ List.mem_map_of_mem hm))
          (hlater m hm)
      rw [filled_cons_of_field hfind hkey,
        taken_cons_of_field hfields (List.mem_of_find?_eq_some hfind) hkey]
      exact exists_congr fun change => and_congr_right fun _ => ih hrest hnew'

/-- **A record is taken field by field**, in whatever order the members stand. -/
theorem recordOfMembers_iff_taken (hfields : Independent fields)
    (hnodup : (ms.map (·.1)).Nodup) :
    recordOfMembers a fields dialect ms = .ok b ↔ Taken dialect ms fields a b := by
  have hfilled : Filled fields dialect ms (a, []) b ↔ Taken dialect ms (unseen fields []) a b :=
    filled_iff_taken hfields hnodup fun _ _ => List.not_mem_nil
  have hall : unseen fields [] = fields := List.filter_eq_self.2 fun _ _ => rfl
  rw [hall] at hfilled
  rw [← hfilled, recordOfMembers, bind_eq_ok_iff]
  constructor
  · rintro ⟨⟨c, seen⟩, hdraft, hrest⟩
    obtain ⟨⟨⟩, hpresent, heq⟩ := bind_eq_ok_iff.1 hrest
    cases heq
    exact ⟨_, hdraft, hpresent, rfl⟩
  · rintro ⟨⟨c, seen⟩, hdraft, hpresent, rfl⟩
    exact ⟨_, hdraft, bind_eq_ok_iff.2 ⟨(), hpresent, rfl⟩⟩

/-- An object that has just been written is read field by field. -/
theorem record_ofMembers {label : String} (hfields : Independent fields)
    (hnodup : (ms.map (·.1)).Nodup) (h : Taken dialect ms fields a b) :
    (record label a fields).ofTree dialect (.ofMembers ms) = .ok b := by
  have hperm := sortMembers_perm hnodup
  refine (recordOfMembers_iff_taken hfields ((hperm.map _).nodup_iff.2 hnodup)).2 ?_
  exact (taken_congr fun f _ => (lookup_perm hnodup hperm.symm f.name)).1 h

/-! ## Records with room for more -/

/-- The members that are no fields. -/
def unclaimed (fields : List (RecordField α)) (ms : List (String × Json)) :
    List (String × Json) :=
  ms.filter fun m => !fields.any (·.name == m.1)

theorem nodup_keys_unclaimed (hnodup : (ms.map (·.1)).Nodup) :
    ((unclaimed fields ms).map (·.1)).Nodup :=
  nodup_keys_filter hnodup _

theorem lookup_unclaimed {name : String} (h : ∀ f ∈ fields, f.name ≠ name) :
    (unclaimed fields ms).lookup name = ms.lookup name :=
  lookup_filter ms (p := fun key => !fields.any (·.name == key)) (by simpa using h)

/-- A member of a text that is a field's is read as the field is. -/
theorem readField_eq_ok {depth : Nat} {draft draft' : Draft α} {s rest : List Char}
    (hfind : fields.find? (·.name == key) = some f)
    (h : readField fields depth draft key s = .ok (draft', rest)) :
    ∃ t change, scanColon s = .ok t ∧ f.value.ofText depth t = .ok (change, rest) := by
  rw [readField, hfind] at h
  dsimp only at h
  split at h
  · cases h
  · obtain ⟨t, hcolon, h⟩ := bind_eq_ok_iff.1 h
    obtain ⟨⟨change, r⟩, hvalue, heq⟩ := bind_eq_ok_iff.1 h
    cases heq
    exact ⟨t, change, lift_eq_ok_iff.1 hcolon, hvalue⟩

/-- A member of a text is a field's, or else is read as a value and put aside. -/
theorem readOrKeep_eq_ok {depth : Nat} {state state' : Draft α × List (String × Json)}
    {s rest : List Char} (h : readOrKeep fields depth state key s = .ok (state', rest)) :
    (∃ f ∈ fields, ∃ t change, scanColon s = .ok t ∧ f.value.ofText depth t = .ok (change, rest) ∧
      state'.2 = state.2) ∨
    ((∀ f ∈ fields, f.name ≠ key) ∧ ∃ t v, scanColon s = .ok t ∧
      readTree depth t = .ok (v, rest) ∧ state'.2 = (key, v) :: state.2) := by
  rw [readOrKeep] at h
  cases hfind : fields.find? (·.name == key) with
  | none =>
    rw [hfind] at h
    obtain ⟨⟨kept, r⟩, hput, heq⟩ := bind_eq_ok_iff.1 h
    cases heq
    obtain ⟨t, v, hcolon, hv, hkept⟩ := readMember_eq_ok hput
    exact .inr ⟨by simpa using hfind, t, v, hcolon, hv, hkept⟩
  | some f =>
    rw [hfind] at h
    obtain ⟨⟨draft, r⟩, hfield, heq⟩ := bind_eq_ok_iff.1 h
    cases heq
    obtain ⟨t, change, hcolon, hvalue⟩ := readField_eq_ok hfind hfield
    exact .inl ⟨f, List.mem_of_find?_eq_some hfind, t, change, hcolon, hvalue, rfl⟩

/-- What is no field is put aside, and does not get in the way of the fields. -/
theorem foldlM_takeOrKeep (ms : List (String × Json)) :
    ∀ (draft : Draft α) (kept : List (String × Json)),
      ms.foldlM (takeOrKeep fields dialect) (draft, kept) =
        ms.foldlM (takeMember fields dialect) draft >>= fun draft =>
          .ok (draft, (unclaimed fields ms).reverse ++ kept) := by
  induction ms with
  | nil => exact fun draft kept => rfl
  | cons m rest ih =>
    intro draft kept
    rw [List.foldlM_cons, List.foldlM_cons, takeOrKeep]
    cases hfind : fields.find? (·.name == m.1) with
    | none =>
      have hkept : unclaimed fields (m :: rest) = m :: unclaimed fields rest :=
        List.filter_cons_of_pos (by simpa using hfind)
      have htake : takeMember fields dialect draft m = .ok draft := by rw [takeMember, hfind]
      rw [htake, hkept, ok_bind, ok_bind, ih draft (m :: kept)]
      simp
    | some f =>
      have hclaimed : unclaimed fields (m :: rest) = unclaimed fields rest := by
        refine List.filter_cons_of_neg ?_
        simpa using ⟨f, List.mem_of_find?_eq_some hfind, by simpa using List.find?_some hfind⟩
      rw [hclaimed]
      cases takeMember fields dialect draft m with
      | error e => rfl
      | ok draft' => exact ih draft' kept

/-- A record with room for more is its fields' record, finished with what is no field. -/
theorem openRecord_ofTree {r : OpenRecord α} (hms : v.members? = some ms) :
    (openRecord r).ofTree dialect v =
      recordOfMembers r.blank r.fields dialect ms >>=
        r.finish dialect (unclaimed r.fields ms) := by
  simp only [openRecord, hms, foldlM_takeOrKeep, recordOfMembers, OpenRecord.complete]
  cases ms.foldlM (takeMember r.fields dialect) (r.blank, []) with
  | error e => rfl
  | ok draft =>
    simp only [ok_bind, List.append_nil, List.reverse_reverse]
    cases checkPresent r.fields draft.2 <;> rfl

/-- **So it is taken field by field too.** -/
theorem openRecord_iff_taken {r : OpenRecord α} (hfields : Independent r.fields)
    (hnodup : (ms.map (·.1)).Nodup) :
    (openRecord r).ofTree dialect (.obj ms) = .ok b ↔
      ∃ a, Taken dialect ms r.fields r.blank a ∧
        r.finish dialect (unclaimed r.fields ms) a = .ok b := by
  rw [openRecord_ofTree rfl, bind_eq_ok_iff]
  simp only [recordOfMembers_iff_taken hfields hnodup]

/-! ## Single fields -/

theorem taken_needed {name : String} {d : Decoder β} {set : β → α → α} :
    Taken dialect ms (.needed name d set :: fields) a b ↔
      ∃ w c, ms.lookup name = some w ∧ d.ofTree dialect w = .ok c ∧
        Taken dialect ms fields (set c a) b := by
  constructor
  · rintro ⟨change, ⟨hw, hchange⟩ | ⟨-, ⟨⟩⟩, hrest⟩
    obtain ⟨c, hc, rfl⟩ := map_eq_ok_iff.1 hchange
    exact ⟨_, c, hw, hc, hrest⟩
  · rintro ⟨w, c, hw, hc, hrest⟩
    exact ⟨set c, .given hw (map_eq_ok_iff.2 ⟨c, hc, rfl⟩), hrest⟩

/-- What an optional member is decoded as, with a default for none. -/
def Given (dialect : Dialect) (d : Decoder β) (default : β) (member : Option Json) (c : β) : Prop :=
  match member with
  | none => c = default
  | some w => d.ofTree dialect w = .ok c

/-- A member that may be absent counts as the default written out. -/
theorem Exact.given_iff {d : Decoder β} {written : β → Json} (h : d.Exact written) {default c : β}
    {member : Option Json} :
    Given dialect d default member c ↔ member.getD (written default) = written c := by
  cases member with
  | none =>
    have hinj : written default = written c → c = default := fun heq => by
      have hdefault := (h dialect _ default).2 rfl
      rw [heq, (h dialect _ c).2 rfl] at hdefault
      exact Except.ok.inj hdefault
    exact ⟨fun heq => heq ▸ rfl, hinj⟩
  | some w => exact h dialect w c

/-- A field that may be absent keeps the value it has. -/
theorem taken_absentable {name : String} {d : Decoder β} {set : β → α → α} (kept : β)
    (hkept : set kept a = a) :
    Taken dialect ms (.absentable name d set :: fields) a b ↔
      ∃ c, Given dialect d kept (ms.lookup name) c ∧ Taken dialect ms fields (set c a) b := by
  constructor
  · rintro ⟨change, ⟨hw, hchange⟩ | ⟨hnone, -⟩, hrest⟩
    · obtain ⟨c, hc, rfl⟩ := map_eq_ok_iff.1 hchange
      exact ⟨c, by rw [show ms.lookup name = _ from hw]; exact hc, hrest⟩
    · exact ⟨kept, by rw [show ms.lookup name = _ from hnone]; rfl, hkept.symm ▸ hrest⟩
  · rintro ⟨c, hc, hrest⟩
    cases hlookup : ms.lookup name with
    | none =>
      rw [hlookup] at hc
      obtain rfl : c = kept := hc
      exact ⟨id, .absent hlookup rfl, hkept ▸ hrest⟩
    | some w =>
      rw [hlookup] at hc
      exact ⟨set c, .given hlookup (map_eq_ok_iff.2 ⟨c, hc, rfl⟩), hrest⟩

end Json.Decoder

end ModularHost
