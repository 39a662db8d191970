import Mathlib.Data.List.Forall2
import Mathlib.Data.List.Nodup
import ModularHost.Proofs.Json.Fields
import ModularHost.Proofs.Json.Passing
/-!
# What a record is made of

A record is decoded from a tree or straight from a text, and either may give a field as a member or
as an element (`Source.Gives`). In each of these ways a record is its blank with one change for each
field that is given (`Decoder.record_made`): nothing else has a part in it, be it a member that is
no field or what stands in the place of another field.

A text has its members and elements even where it cannot be read as a tree: they are what is left of
the text from each of them on, where one ends by skipping it.
-/


namespace ModularHost
namespace Json

variable {α β σ : Type}

/-! ## Sources -/

/-- What a value is decoded from: a tree, or what a text begins with, some brackets allowed. -/
inductive Source where
  | tree (dialect : Dialect) (v : Json)
  | text (depth : Nat) (s : List Char)

/-- The value that begins here, told by the text from here on. -/
def outline (s : List Char) : Except Fault (List Char × List Char) :=
  (skip s).map (s, ·)

/-- The elements of the list that a text begins with. -/
def outlineList (s : List Char) : Except Fault (List (List Char)) := do
  let (head, rest) ← lift (scanHead s)
  match head with
  | .openList => return (← readElements outline (rest.length + 1) true rest).1
  | _ => return []

/-- The members of the object that a text begins with. -/
def outlineObject (s : List Char) : Except Fault (List (String × List Char)) := do
  let (head, rest) ← lift (scanHead s)
  match head with
  | .openObject =>
    return (← readMembers (readMember outline) (rest.length + 1) true [] rest).1.reverse
  | _ => return []

namespace Source

/-- A source gives a part, as a member under its name or as the element at its place. -/
inductive Gives : Source → (name : String) → (place : Nat) → (part : Source) → Prop
  | member {dialect : Dialect} {ms : List (String × Json)} {name : String} {place : Nat}
    {w : Json} : (name, w) ∈ ms → Gives (.tree dialect (.obj ms)) name place (.tree dialect w)
  | dateMember {dialect : Dialect} {date name : String} {place : Nat} {w : Json} :
    (name, w) ∈ dateMembers date → Gives (.tree dialect (.date date)) name place (.tree dialect w)
  | element {dialect : Dialect} {vs : List Json} {name : String} {place : Nat} {w : Json} :
    vs[place]? = some w → Gives (.tree dialect (.arr vs)) name place (.tree dialect w)
  | textMember {depth place : Nat} {s t : List Char} {name : String}
    {ms : List (String × List Char)} : outlineObject s = .ok ms → (name, t) ∈ ms →
    Gives (.text (depth + 1) s) name place (.text depth t)
  | textElement {depth place : Nat} {s t : List Char} {name : String} {ts : List (List Char)} :
    outlineList s = .ok ts → ts[place]? = some t →
    Gives (.text (depth + 1) s) name place (.text depth t)

end Source

/-! ## Outlines of texts -/

section Outlines

variable {s rest : List Char}

theorem outline_of_skips (h : SkipsTo s rest) : outline s = .ok (s, rest) := by
  rw [outline, h.skip]
  rfl

/-- Members that are taken one after the other are those of the outline. -/
theorem readMembers_outline {member : σ → String → List Char → Except Fault (σ × List Char)}
    {step : σ → String × List Char → Except Fault σ}
    (h : ∀ state key s state' rest, member state key s = .ok (state', rest) →
      ∃ t, scanColon s = .ok t ∧ SkipsTo t rest ∧ step state (key, t) = .ok state')
    {fuel : Nat} : ∀ {first : Bool} {state state' : σ} {s rest : List Char},
      readMembers member fuel first state s = .ok (state', rest) →
      ∃ ms : List (String × List Char), ms.foldlM step state = .ok state' ∧ ∀ before,
        readMembers (readMember outline) fuel first before s =
          .ok (ms.reverse ++ before, rest) := by
  induction fuel with
  | zero =>
    intro first state state' s rest hread
    cases hread
  | succ fuel ih =>
    intro first state state' s rest hread
    obtain ⟨next, hnext, hread⟩ := bind_eq_ok_iff.1 hread
    rw [lift_eq_ok_iff] at hnext
    cases next with
    | close r =>
      cases hread
      exact ⟨[], rfl, fun before => readMembers_of_close hnext⟩
    | more r =>
      obtain ⟨⟨key, r₁⟩, hkey, hread⟩ := bind_eq_ok_iff.1 hread
      obtain ⟨⟨state₁, r₂⟩, hmember, hread⟩ := bind_eq_ok_iff.1 hread
      obtain ⟨t, hcolon, hskip, hstep⟩ := h _ _ _ _ _ hmember
      obtain ⟨ms, hsteps, hmore⟩ := ih hread
      refine ⟨(key, t) :: ms, ?_, fun before => ?_⟩
      · rw [List.foldlM_cons]
        exact bind_eq_ok_iff.2 ⟨state₁, hstep, hsteps⟩
      · have houtline : readMember outline before key r₁ = .ok ((key, t) :: before, r₂) := by
          rw [readMember, hcolon, lift_ok, ok_bind, outline_of_skips hskip]
          rfl
        rw [readMembers_of_more hnext (lift_eq_ok_iff.1 hkey), houtline, ok_bind]
        simpa using hmore ((key, t) :: before)

end Outlines

/-! ## Changes -/

namespace Decoder

/-- Decodes from a source. -/
def decodeFrom (d : Decoder α) : Source → Except Fault α
  | .tree dialect v => d.ofTree dialect v
  | .text depth s => (d.ofText depth s).map (·.1)

/-- A field that is given, by which part of a source, and what this changes. -/
structure Change (α : Type) where
  field : RecordField α
  part : Source
  apply : α → α

/-- All changes, one after the other. -/
def changed (blank : α) (changes : List (Change α)) : α :=
  changes.foldl (fun a c => c.apply a) blank

/-- A record is its blank with one change for each field that the source gives. -/
structure Made (fields : List (RecordField α)) (src : Source) (blank a : α)
    (changes : List (Change α)) : Prop where
  result : a = changed blank changes
  decoded : ∀ c ∈ changes, c.field.value.decodeFrom c.part = .ok c.apply
  given : ∀ c ∈ changes, ∃ place, fields[place]? = some c.field ∧
    src.Gives c.field.name place c.part
  all : ∀ place f part, fields[place]? = some f → src.Gives f.name place part →
    ∃ c ∈ changes, c.field = f ∧ c.part = part

/-- One member taken into a record, whatever stands for its value. -/
def takeFrom (fields : List (RecordField α)) (part : β → Source) (draft : Draft α)
    (member : String × β) : Except Fault (Draft α) :=
  match fields.find? (·.name == member.1) with
  | none => .ok draft
  | some f =>
    if draft.2.contains f.name then .error (.duplicateField f.name)
    else do
      let change ← f.value.decodeFrom (part member.2)
      return (change draft.1, f.name :: draft.2)

variable {fields : List (RecordField α)} {part : β → Source}

/-- The members whose names are fields are the changes. -/
theorem changes_of_takeFrom (hnodup : (fields.map (·.name)).Nodup) (ms : List (String × β)) :
    ∀ {draft draft' : Draft α}, ms.foldlM (takeFrom fields part) draft = .ok draft' →
      ∃ changes : List (Change α), draft'.1 = changed draft.1 changes ∧
        (∀ c ∈ changes, c.field.value.decodeFrom c.part = .ok c.apply) ∧
        (∀ c ∈ changes, c.field ∈ fields ∧ ∃ w, (c.field.name, w) ∈ ms ∧ c.part = part w) ∧
        ∀ f ∈ fields, ∀ w, (f.name, w) ∈ ms → ∃ c ∈ changes, c.field = f ∧ c.part = part w := by
  induction ms with
  | nil =>
    rintro draft _ ⟨⟩
    exact ⟨[], rfl, by simp, by simp, by simp⟩
  | cons m rest ih =>
    intro draft draft' h
    rw [List.foldlM_cons] at h
    obtain ⟨draft₁, hm, hrest⟩ := bind_eq_ok_iff.1 h
    obtain ⟨changes, hresult, hdecoded, hgiven, hall⟩ := ih hrest
    obtain ⟨key, w⟩ := m
    unfold takeFrom at hm
    split at hm
    · rename_i hfind
      cases hm
      have hkey : ∀ f ∈ fields, f.name ≠ key := by simpa using hfind
      refine ⟨changes, hresult, hdecoded, fun c hc => ?_, fun f hf w' hw' => ?_⟩
      · obtain ⟨hc, w', hw', heq⟩ := hgiven c hc
        exact ⟨hc, w', List.mem_cons_of_mem _ hw', heq⟩
      · rcases List.mem_cons.1 hw' with heq | hw'
        · cases heq
          exact absurd rfl (hkey f hf)
        · exact hall f hf w' hw'
    · rename_i f hfind
      have hname : f.name = key := by simpa using List.find?_some hfind
      have hf : f ∈ fields := List.mem_of_find?_eq_some hfind
      split at hm
      · cases hm
      · obtain ⟨change, hchange, hm⟩ := bind_eq_ok_iff.1 hm
        cases hm
        refine ⟨⟨f, part w, change⟩ :: changes, hresult, ?_, fun c hc => ?_, fun g hg w' hw' => ?_⟩
        · exact List.forall_mem_cons.2 ⟨hchange, hdecoded⟩
        · rcases List.mem_cons.1 hc with rfl | hc
          · exact ⟨hf, w, hname ▸ List.mem_cons_self, rfl⟩
          · obtain ⟨hc, w', hw', heq⟩ := hgiven c hc
            exact ⟨hc, w', List.mem_cons_of_mem _ hw', heq⟩
        · rcases List.mem_cons.1 hw' with heq | hw'
          · obtain ⟨hkey, rfl⟩ := Prod.mk.inj heq
            -- no two fields have one name, so the field found is the one that is asked about
            have hfg : f = g := List.inj_on_of_nodup_map hnodup hf hg (hname.trans hkey.symm)
            exact ⟨_, List.mem_cons_self, hfg, rfl⟩
          · obtain ⟨c, hc, heq⟩ := hall g hg w' hw'
            exact ⟨c, List.mem_cons_of_mem _ hc, heq⟩

/-- A field and a part for it, decoded one after the other. -/
theorem changes_of_elements {label : String} {count : Nat} {dialect : Dialect}
    {fields : List (RecordField α)} : ∀ {index : Nat} {vs : List Json} {a b : α},
      recordOfElements label count dialect index fields vs a = .ok b →
      ∃ changes : List (Change α), b = changed a changes ∧
        (∀ c ∈ changes, c.field.value.decodeFrom c.part = .ok c.apply) ∧
        changes.map (fun c => (c.field, c.part)) = fields.zip (vs.map (.tree dialect)) := by
  induction fields with
  | nil =>
    intro index vs a b h
    have hb : b = a := by
      cases vs with
      | nil =>
        cases h
        rfl
      | cons v vs =>
        cases dialect with
        | json => cases h
        | toml =>
          cases h
          rfl
    exact ⟨[], hb, by simp, rfl⟩
  | cons f fields ih =>
    intro index vs a b h
    cases vs with
    | nil =>
      rw [recordOfElements] at h
      split at h
      · cases h
      · obtain ⟨changes, hresult, hdecoded, hzip⟩ := ih h
        simp only [List.map_nil, List.zip_nil_right, List.map_eq_nil_iff] at hzip
        subst hzip
        exact ⟨[], hresult, by simp, rfl⟩
    | cons v vs =>
      obtain ⟨change, hchange, h⟩ := bind_eq_ok_iff.1 h
      obtain ⟨changes, hresult, hdecoded, hzip⟩ := ih h
      refine ⟨⟨f, .tree dialect v, change⟩ :: changes, hresult, ?_, ?_⟩
      · exact List.forall_mem_cons.2 ⟨hchange, hdecoded⟩
      · simp [hzip]

/-- So are the elements of a text, each from where it begins. -/
theorem changes_of_readFields {label : String} {count depth : Nat} :
    ∀ {fields : List (RecordField α)}, (∀ f ∈ fields, f.value.Skips) →
      ∀ {index : Nat} {s rest : List Char} {a b : α},
        readFields label count depth index fields s a = .ok (b, rest) →
        ∃ (changes : List (Change α)) (ts : List (List Char)), b = changed a changes ∧
          (∀ c ∈ changes, c.field.value.decodeFrom c.part = .ok c.apply) ∧
          changes.map (fun c => (c.field, c.part)) = fields.zip (ts.map (.text depth)) ∧
          ∀ fuel, s.length < fuel → readElements outline fuel (index == 0) s = .ok (ts, rest)
  | [], _, index, s, rest, a, b, hread => by
    obtain ⟨r, hclose, hread⟩ := bind_eq_ok_iff.1 hread
    cases hread
    have hnext : nextElement (index == 0) s = .ok (.close rest) := by
      simp only [nextElement, closeList_eq_ok (lift_eq_ok_iff.1 hclose)]
    refine ⟨[], [], rfl, by simp, rfl, fun fuel hfuel => ?_⟩
    obtain ⟨fuel, rfl⟩ : ∃ n, fuel = n + 1 := ⟨fuel - 1, by omega⟩
    exact readElements_of_close hnext
  | f :: fields, h, index, s, rest, a, b, hread => by
    obtain ⟨next, hnext, hread⟩ := bind_eq_ok_iff.1 hread
    rw [lift_eq_ok_iff] at hnext
    cases next with
    | close r =>
      obtain ⟨rfl, rfl⟩ := checkRest_eq_ok hread
      refine ⟨[], [], rfl, by simp, rfl, fun fuel hfuel => ?_⟩
      obtain ⟨fuel, rfl⟩ : ∃ n, fuel = n + 1 := ⟨fuel - 1, by omega⟩
      exact readElements_of_close hnext
    | more r =>
      obtain ⟨⟨change, r₁⟩, hvalue, hread⟩ := bind_eq_ok_iff.1 hread
      have hskip : SkipsTo r r₁ := h f List.mem_cons_self _ _ _ _ hvalue
      obtain ⟨changes, ts, hresult, hdecoded, hzip, houtline⟩ :=
        changes_of_readFields (fun g hg => h g (List.mem_cons_of_mem _ hg)) hread
      have hchange : f.value.decodeFrom (.text depth r) = .ok change := by
        rw [decodeFrom, hvalue]
        rfl
      have hlen : r₁.length < s.length := by
        have hshorter := hskip.shorter
        obtain ⟨-, ⟨-, hs⟩ | ⟨-, t, hs, ht⟩⟩ := nextElement_eq_more hnext
        · have hle := length_skipSpaces_le s
          rw [hs] at hle
          omega
        · have hlt := length_lt_of_skipSpaces hs
          have hle := length_skipSpaces_le t
          rw [ht] at hle
          omega
      refine ⟨⟨f, .text depth r, change⟩ :: changes, r :: ts, hresult, ?_, ?_, fun fuel hfuel => ?_⟩
      · exact List.forall_mem_cons.2 ⟨hchange, hdecoded⟩
      · simp [hzip]
      · obtain ⟨fuel, rfl⟩ : ∃ n, fuel = n + 1 := ⟨fuel - 1, by omega⟩
        have hmore : readElements outline fuel false r₁ = .ok (ts, rest) :=
          houtline fuel (by omega)
        rw [readElements_of_more hnext, outline_of_skips hskip, ok_bind]
        simp only [hmore, ok_bind]
        rfl

/-! ## Records -/

variable {label : String} {blank a : α} {src : Source} {changes : List (Change α)}

theorem made_of_members (hnodup : (fields.map (·.name)).Nodup) {ms : List (String × β)}
    {seen : List String}
    (hgives : ∀ name place p, src.Gives name place p ↔ ∃ w, (name, w) ∈ ms ∧ p = part w)
    (h : ms.foldlM (takeFrom fields part) (blank, []) = .ok (a, seen)) :
    ∃ changes, Made fields src blank a changes := by
  obtain ⟨changes, hresult, hdecoded, hgiven, hall⟩ := changes_of_takeFrom hnodup ms h
  refine ⟨changes, hresult, hdecoded, fun c hc => ?_, fun place f p hf hp => ?_⟩
  · obtain ⟨hmem, w, hw, heq⟩ := hgiven c hc
    obtain ⟨place, hplace⟩ := List.mem_iff_getElem?.1 hmem
    exact ⟨place, hplace, (hgives _ _ _).2 ⟨w, hw, heq⟩⟩
  · obtain ⟨w, hw, rfl⟩ := (hgives _ _ _).1 hp
    exact hall f (List.mem_of_getElem? hf) w hw

theorem made_of_elements {parts : List Source}
    (hgives : ∀ name place p, src.Gives name place p ↔ parts[place]? = some p)
    (hresult : a = changed blank changes)
    (hdecoded : ∀ c ∈ changes, c.field.value.decodeFrom c.part = .ok c.apply)
    (hzip : changes.map (fun c => (c.field, c.part)) = fields.zip parts) :
    Made fields src blank a changes := by
  refine ⟨hresult, hdecoded, fun c hc => ?_, fun place f p hf hp => ?_⟩
  · have hmem : (c.field, c.part) ∈ fields.zip parts := hzip ▸ List.mem_map_of_mem hc
    obtain ⟨place, hplace⟩ := List.mem_iff_getElem?.1 hmem
    obtain ⟨hfield, hpart⟩ := List.getElem?_zip_eq_some.1 hplace
    exact ⟨place, hfield, (hgives _ _ _).2 hpart⟩
  · have hplace : (fields.zip parts)[place]? = some (f, p) :=
      List.getElem?_zip_eq_some.2 ⟨hf, (hgives _ _ _).1 hp⟩
    have hmem := List.mem_of_getElem? hplace
    rw [← hzip] at hmem
    obtain ⟨c, hc, heq⟩ := List.mem_map.1 hmem
    obtain ⟨hfield, hpart⟩ := Prod.mk.inj heq
    exact ⟨c, hc, hfield, hpart⟩

/-- A record from a tree. -/
theorem made_of_tree (hnodup : (fields.map (·.name)).Nodup) {dialect : Dialect} {v : Json}
    (h : (record label blank fields).ofTree dialect v = .ok a) :
    ∃ changes, Made fields (.tree dialect v) blank a changes := by
  have hmembers : ∀ ms : List (String × Json),
      (∀ name place p, (Source.tree dialect v).Gives name place p ↔
        ∃ w, (name, w) ∈ ms ∧ p = .tree dialect w) →
      recordOfMembers blank fields dialect ms = .ok a →
      ∃ changes, Made fields (.tree dialect v) blank a changes := by
    intro ms hgives h
    obtain ⟨⟨b, seen⟩, hfold, h⟩ := bind_eq_ok_iff.1 h
    obtain ⟨-, -, h⟩ := bind_eq_ok_iff.1 h
    cases h
    exact made_of_members hnodup hgives hfold
  cases v with
  | obj ms =>
    refine hmembers ms (fun name place p => ⟨fun hp => ?_, ?_⟩) h
    · cases hp with
      | member hw => exact ⟨_, hw, rfl⟩
    · rintro ⟨w, hw, rfl⟩
      exact .member hw
  | date date =>
    refine hmembers (dateMembers date) (fun name place p => ⟨fun hp => ?_, ?_⟩) h
    · cases hp with
      | dateMember hw => exact ⟨_, hw, rfl⟩
    · rintro ⟨w, hw, rfl⟩
      exact .dateMember hw
  | arr vs =>
    obtain ⟨changes, hresult, hdecoded, hzip⟩ := changes_of_elements h
    refine ⟨changes, made_of_elements (fun name place p => ⟨fun hp => ?_, fun hp => ?_⟩)
      hresult hdecoded hzip⟩
    · cases hp with
      | element hw => rw [List.getElem?_map, hw, Option.map_some]
    · rw [List.getElem?_map] at hp
      obtain ⟨w, hw, rfl⟩ := Option.map_eq_some_iff.1 hp
      exact .element hw
  | null | bool | int | real | str => cases h

/-- What reading one member of a text comes to, seen from its outline. -/
theorem takeFrom_of_readField (hskips : ∀ f ∈ fields, f.value.Skips) (depth : Nat)
    (draft : Draft α) (key : String) (s : List Char) (draft' : Draft α) (rest : List Char)
    (h : readField fields depth draft key s = .ok (draft', rest)) :
    ∃ t, scanColon s = .ok t ∧ SkipsTo t rest ∧
      takeFrom fields (.text depth) draft (key, t) = .ok draft' := by
  obtain ⟨t, hcolon, hskip⟩ := passesMember_readField hskips depth _ _ _ _ _ h
  refine ⟨t, hcolon, hskip, ?_⟩
  unfold readField at h
  unfold takeFrom
  cases hfind : fields.find? (·.name == key) with
  | none =>
    simp only [hfind, hcolon, lift_ok, ok_bind] at h
    obtain ⟨u, -, heq⟩ := bind_eq_ok_iff.1 h
    cases heq
    rfl
  | some f =>
    simp only [hfind, hcolon, lift_ok, ok_bind] at h
    split at h
    · cases h
    · rename_i hseen
      obtain ⟨⟨change, u⟩, hvalue, heq⟩ := bind_eq_ok_iff.1 h
      cases heq
      dsimp only
      rw [if_neg hseen, decodeFrom, hvalue]
      rfl

/-- A record straight from a text. -/
theorem made_of_text (hnodup : (fields.map (·.name)).Nodup) (hskips : ∀ f ∈ fields, f.value.Skips)
    {depth : Nat} {s rest : List Char}
    (h : (record label blank fields).ofText depth s = .ok (a, rest)) :
    ∃ changes, Made fields (.text depth s) blank a changes := by
  obtain ⟨⟨head, r⟩, hhead, h⟩ := bind_eq_ok_iff.1 h
  cases depth with
  | zero => cases head <;> cases h
  | succ depth =>
    cases head with
    | scalar v => cases h
    | openObject =>
      obtain ⟨⟨⟨b, seen⟩, r'⟩, hmembers, h⟩ := bind_eq_ok_iff.1 h
      obtain ⟨-, -, h⟩ := bind_eq_ok_iff.1 h
      cases h
      obtain ⟨ms, hfold, hread⟩ := readMembers_outline (takeFrom_of_readField hskips depth) hmembers
      have houtline : outlineObject s = .ok ms := by
        rw [outlineObject, hhead, ok_bind]
        exact bind_eq_ok_iff.2 ⟨_, hread [], by simp [pure, Except.pure]⟩
      have hlist : outlineList s = .ok [] := by
        rw [outlineList, hhead, ok_bind]
        rfl
      refine made_of_members hnodup (fun name place p => ⟨fun hp => ?_, ?_⟩) hfold
      · cases hp with
        | textMember hms ht =>
          rw [houtline] at hms
          cases hms
          exact ⟨_, ht, rfl⟩
        | textElement hts ht =>
          rw [hlist] at hts
          cases hts
          cases ht
      · rintro ⟨t, ht, rfl⟩
        exact .textMember houtline ht
    | openList =>
      obtain ⟨changes, ts, hresult, hdecoded, hzip, hread⟩ := changes_of_readFields hskips h
      have houtline : outlineList s = .ok ts := by
        rw [outlineList, hhead, ok_bind]
        exact bind_eq_ok_iff.2 ⟨_, hread _ (Nat.lt_succ_self _), rfl⟩
      have hobject : outlineObject s = .ok [] := by
        rw [outlineObject, hhead, ok_bind]
        rfl
      refine ⟨changes, made_of_elements (fun name place p => ⟨fun hp => ?_, fun hp => ?_⟩)
        hresult hdecoded hzip⟩
      · cases hp with
        | textMember hms ht =>
          rw [hobject] at hms
          cases hms
          cases ht
        | textElement hts ht =>
          rw [houtline] at hts
          cases hts
          rw [List.getElem?_map, ht, Option.map_some]
      · rw [List.getElem?_map] at hp
        obtain ⟨t, ht, rfl⟩ := Option.map_eq_some_iff.1 hp
        exact .textElement houtline ht

/-- **A record is its blank with one change for each field given**, from a tree or a text. -/
theorem record_made (hnodup : (fields.map (·.name)).Nodup) (hskips : ∀ f ∈ fields, f.value.Skips)
    (h : (record label blank fields).decodeFrom src = .ok a) :
    ∃ changes, Made fields src blank a changes := by
  cases src with
  | tree dialect v => exact made_of_tree hnodup h
  | text depth s =>
    obtain ⟨⟨b, rest⟩, hread, rfl⟩ := map_eq_ok_iff.1 h
    exact made_of_text hnodup hskips hread

/-! ## Maps and records with room for more -/

/-- What each member keeps is kept by all of them. -/
theorem readMembers_induction {P : σ → Prop}
    {member : σ → String → List Char → Except Fault (σ × List Char)}
    (hmember : ∀ state key s state' rest, P state → member state key s = .ok (state', rest) →
      P state') {fuel : Nat} : ∀ {first : Bool} {state state' : σ} {s rest : List Char},
      readMembers member fuel first state s = .ok (state', rest) → P state → P state' := by
  induction fuel with
  | zero =>
    intro first state state' s rest hread
    cases hread
  | succ fuel ih =>
    intro first state state' s rest hread hstate
    obtain ⟨next, -, hread⟩ := bind_eq_ok_iff.1 hread
    cases next with
    | close r =>
      cases hread
      exact hstate
    | more r =>
      obtain ⟨⟨key, r₁⟩, -, hread⟩ := bind_eq_ok_iff.1 hread
      obtain ⟨⟨state₁, r₂⟩, hstep, hread⟩ := bind_eq_ok_iff.1 hread
      exact ih hread (hmember _ _ _ _ _ hstate hstep)

/-- **A map has its keys in order**, and each value is what such values are. -/
theorem dictionary_made {d : Decoder α} {P : α → Prop}
    (hvalue : ∀ src a, d.decodeFrom src = .ok a → P a) {ms : List (String × α)}
    (h : (dictionary d).decodeFrom src = .ok ms) : KeyOrdered ms ∧ ∀ m ∈ ms, P m.2 := by
  cases src with
  | tree dialect v =>
    simp only [decodeFrom, dictionary] at h
    split at h
    · obtain ⟨decoded, hdecoded, heq⟩ := bind_eq_ok_iff.1 h
      cases heq
      have hmembers : ∀ m ∈ decoded, P m.2 := forall_mem_of_mapM (fun m n hn => by
        obtain ⟨a, ha, rfl⟩ := map_eq_ok_iff.1 hn
        exact hvalue (.tree dialect m.2) a ha) hdecoded
      exact ⟨keyOrdered_sortMembers _, fun m hm => hmembers m (mem_sortMembers hm)⟩
    · cases h
  | text depth s =>
    obtain ⟨⟨ms', rest⟩, hread, rfl⟩ := map_eq_ok_iff.1 h
    obtain ⟨⟨head, t⟩, -, hread⟩ := bind_eq_ok_iff.1 hread
    cases depth with
    | zero => cases head <;> cases hread
    | succ depth =>
      cases head with
      | scalar v => cases hread
      | openList => cases hread
      | openObject =>
        obtain ⟨⟨decoded, rest'⟩, hmembers, heq⟩ := bind_eq_ok_iff.1 hread
        cases heq
        have hall : ∀ m ∈ decoded, P m.2 := by
          refine readMembers_induction (P := fun ms => ∀ m ∈ ms, P m.2) ?_ hmembers (by simp)
          intro before key s after rest hbefore hmember
          obtain ⟨t, a, -, ha, rfl⟩ := readMember_eq_ok hmember
          refine List.forall_mem_cons.2 ⟨hvalue (.text depth t) a ?_, hbefore⟩
          rw [decodeFrom, ha]
          rfl
        exact ⟨keyOrdered_sortMembers _,
          fun m hm => hall m (List.mem_reverse.1 (mem_sortMembers hm))⟩

/-- **A record with room for more is finished** with members that are no fields. -/
theorem openRecord_made {r : OpenRecord α} {b : α}
    (h : (openRecord r).decodeFrom src = .ok b) :
    ∃ dialect rest a, (∀ m ∈ rest, ∀ f ∈ r.fields, f.name ≠ m.1) ∧
      r.finish dialect rest a = .ok b := by
  cases src with
  | tree dialect v =>
    rw [decodeFrom] at h
    cases hms : v.members? with
    | none =>
      simp only [openRecord, hms] at h
      cases h
    | some ms =>
      rw [openRecord_ofTree hms] at h
      obtain ⟨a, -, hfinish⟩ := bind_eq_ok_iff.1 h
      exact ⟨dialect, _, a, fun m hm => by simpa using List.of_mem_filter hm, hfinish⟩
  | text depth s =>
    obtain ⟨⟨b', rest⟩, hread, rfl⟩ := map_eq_ok_iff.1 h
    obtain ⟨⟨head, t⟩, -, hread⟩ := bind_eq_ok_iff.1 hread
    cases depth with
    | zero => cases head <;> cases hread
    | succ depth =>
      cases head with
      | scalar v => cases hread
      | openList => cases hread
      | openObject =>
        obtain ⟨⟨⟨⟨a, seen⟩, kept⟩, rest'⟩, hmembers, hread⟩ := bind_eq_ok_iff.1 hread
        obtain ⟨c, hcomplete, heq⟩ := bind_eq_ok_iff.1 hread
        cases heq
        obtain ⟨-, -, hfinish⟩ := bind_eq_ok_iff.1 hcomplete
        have hkept : ∀ m ∈ kept, ∀ f ∈ r.fields, f.name ≠ m.1 := by
          refine readMembers_induction
            (P := fun state : Draft α × List (String × Json) =>
              ∀ m ∈ state.2, ∀ f ∈ r.fields, f.name ≠ m.1) ?_ hmembers (by simp)
          intro state key s state' rest hstate hmember
          rcases readOrKeep_eq_ok hmember with
            ⟨-, -, -, -, -, -, hkept⟩ | ⟨hnone, -, v, -, -, hkept⟩
          · exact hkept ▸ hstate
          · exact hkept ▸ List.forall_mem_cons.2 ⟨hnone, hstate⟩
        exact ⟨.json, kept.reverse, a, fun m hm => hkept m (List.mem_reverse.1 hm), hfinish⟩

/-! ## One field of a record -/

variable {γ : Type} {name : String} {get : α → γ}

theorem decodeFrom_map_eq_ok_iff {d : Decoder β} {g : β → γ} {c : γ} :
    (d.map g).decodeFrom src = .ok c ↔ ∃ b, d.decodeFrom src = .ok b ∧ g b = c := by
  cases src with
  | tree dialect v => exact map_eq_ok_iff
  | text depth s =>
    simp only [decodeFrom, map, map_eq_ok_iff]
    constructor
    · rintro ⟨_, ⟨⟨b, rest⟩, hb, rfl⟩, rfl⟩
      exact ⟨b, ⟨_, hb, rfl⟩, rfl⟩
    · rintro ⟨_, ⟨⟨b, rest⟩, hb, rfl⟩, rfl⟩
      exact ⟨_, ⟨_, hb, rfl⟩, rfl⟩

/-- Whatever is taken for the field, it is not what `get` shows. -/
def RecordField.Spares (f : RecordField α) (get : α → γ) : Prop :=
  ∀ part change, f.value.decodeFrom part = .ok change → ∀ a, get (change a) = get a

theorem RecordField.spares_of_set {required : Bool} {d : Decoder β} {set : β → α → α}
    (h : ∀ v a, get (set v a) = get a) :
    (RecordField.mk name required (d.map set)).Spares get := by
  intro part change hchange a
  obtain ⟨v, -, rfl⟩ := decodeFrom_map_eq_ok_iff.1 hchange
  exact h v a

/-- What every change leaves standing, and the blank or some change brings about, is so in the
end. -/
theorem changed_induction {P : α → Prop} (hkeeps : ∀ c ∈ changes, ∀ a, P a → P (c.apply a))
    (h : P blank ∨ ∃ c ∈ changes, ∀ a, P (c.apply a)) : P (changed blank changes) := by
  induction changes generalizing blank with
  | nil =>
    rcases h with h | ⟨c, hc, -⟩
    · exact h
    · cases hc
  | cons c changes ih =>
    have hrest : ∀ c ∈ changes, ∀ a, P a → P (c.apply a) :=
      fun c hc => hkeeps c (List.mem_cons_of_mem _ hc)
    refine ih hrest ?_
    rcases h with h | ⟨c', hc', h⟩
    · exact .inl (hkeeps c List.mem_cons_self blank h)
    · rcases List.mem_cons.1 hc' with rfl | hc'
      · exact .inl (h blank)
      · exact .inr ⟨c', hc', h⟩

variable {required : Bool} {d : Decoder β} {set : β → α → α}
  (hskips : ∀ f ∈ fields, f.value.Skips) (hnodup : (fields.map (·.name)).Nodup) (get : α → γ)
  (place : Nat) (hf : fields[place]? = some ⟨name, required, d.map set⟩)
  (hothers : (fields.eraseIdx place).Forall (·.Spares get))
  (h : (record label blank fields).decodeFrom src = .ok a)
include hskips hnodup hf hothers h

/-- **What only one field sets** is as that field's values are, if the blank is so or the field is
given. -/
theorem record_get {P : γ → Prop}
    (hpart : ∀ part v, src.Gives name place part → d.decodeFrom part = .ok v →
      ∀ a, P (get (set v a)))
    (hstart : P (get blank) ∨ ∃ part, src.Gives name place part) : P (get a) := by
  obtain ⟨changes, hmade⟩ := record_made hnodup hskips h
  have hsets : ∀ c ∈ changes, c.field = ⟨name, required, d.map set⟩ →
      src.Gives name place c.part → ∀ a, P (get (c.apply a)) := by
    intro c hc hfield hgives a
    have hdecoded := hmade.decoded c hc
    rw [hfield] at hdecoded
    obtain ⟨v, hv, hset⟩ := decodeFrom_map_eq_ok_iff.1 hdecoded
    rw [← hset]
    exact hpart c.part v hgives hv a
  have hkeeps : ∀ c ∈ changes, ∀ a, P (get a) → P (get (c.apply a)) := by
    intro c hc a ha
    obtain ⟨place', hplace', hgives⟩ := hmade.given c hc
    by_cases hplace : place' = place
    · subst hplace
      have hfield : c.field = ⟨name, required, d.map set⟩ := by
        rw [hf] at hplace'
        exact (Option.some.inj hplace').symm
      rw [hfield] at hgives
      exact hsets c hc hfield hgives a
    · have hother : c.field ∈ fields.eraseIdx place :=
        List.mem_eraseIdx_iff_getElem?.2 ⟨place', hplace, hplace'⟩
      have hspares := List.forall_iff_forall_mem.1 hothers c.field hother
      rwa [hspares c.part c.apply (hmade.decoded c hc) a]
  rw [hmade.result]
  refine changed_induction (P := fun a => P (get a)) hkeeps (hstart.imp_right ?_)
  rintro ⟨part, hgives⟩
  obtain ⟨c, hc, hfield, rfl⟩ := hmade.all place _ part hf hgives
  exact ⟨c, hc, hsets c hc hfield hgives⟩

/-- It is as in the blank if the field is not given. -/
theorem record_left_out (hout : ∀ part, ¬ src.Gives name place part) : get a = get blank :=
  record_get hskips hnodup get place hf hothers h (P := fun x => x = get blank)
    (fun part _ hpart => absurd hpart (hout part)) (.inl rfl)

end Decoder
end Json
end ModularHost
