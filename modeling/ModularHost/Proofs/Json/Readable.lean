import ModularHost.Proofs.Json.Fields
import ModularHost.Proofs.Json.Printing
/-!
# Texts that stand for values

A decoder can make something of a text that stands for no value, since it skips what it does not ask
for. One that skips nothing can not: what it takes from a text it takes from the value for which the
text stands (`Decoder.decodeText_eq_ok_iff`).
-/


namespace ModularHost
namespace Json

variable {α β σ : Type} {s : String} {v w : Json}

/-! ## Values that can be printed -/

theorem plainItems_iff {items : List Json} : PlainItems items ↔ ∀ v ∈ items, v.Plain := by
  induction items with
  | nil => simp [PlainItems]
  | cons v rest ih => simp [PlainItems, ih]

theorem plainMembers_iff {ms : List (String × Json)} : PlainMembers ms ↔ ∀ m ∈ ms, m.2.Plain := by
  induction ms with
  | nil => simp [PlainMembers]
  | cons m rest ih => simp [PlainMembers, ih]

theorem nestingItems_le_iff {items : List Json} {n : Nat} :
    nestingItems items ≤ n ↔ ∀ v ∈ items, v.nesting ≤ n := by
  induction items with
  | nil => simp [nestingItems]
  | cons v rest ih => rw [nestingItems, Nat.max_le, ih, List.forall_mem_cons]

theorem nestingMembers_le_iff {ms : List (String × Json)} {n : Nat} :
    nestingMembers ms ≤ n ↔ ∀ m ∈ ms, m.2.nesting ≤ n := by
  induction ms with
  | nil => simp [nestingMembers]
  | cons m rest ih => rw [nestingMembers, Nat.max_le, ih, List.forall_mem_cons]

/-! ## Texts and values -/

/-- A text is read as a value, with nothing but blanks behind it. -/
def StandsFor (s : String) (v : Json) : Prop :=
  ∃ rest, readTree depthLimit s.toList = .ok (v, rest) ∧ skipSpaces rest = []

theorem StandsFor.unique (hv : StandsFor s v) (hw : StandsFor s w) : v = w := by
  obtain ⟨_, hv, -⟩ := hv
  obtain ⟨_, hw, -⟩ := hw
  rw [hv] at hw
  cases hw
  rfl

theorem standsFor_text (hplain : v.Plain) (hdepth : v.nesting ≤ depthLimit) :
    StandsFor v.text v :=
  ⟨[], readTree_text hplain hdepth, rfl⟩

namespace Decoder

/-- What the decoder takes from a text can be read as a value. -/
def Reads (d : Decoder α) : Prop :=
  ∀ depth s a rest, d.ofText depth s = .ok (a, rest) → ∃ v, readTree depth s = .ok (v, rest)

variable {d : Decoder α}

theorem reads_map (h : d.Reads) (f : α → β) : (d.map f).Reads := by
  intro depth s b rest htext
  obtain ⟨⟨a, rest'⟩, ha, heq⟩ := map_eq_ok_iff.1 htext
  cases heq
  exact h depth s a rest ha

theorem reads_scalar (take : Json → Except Fault α) (wanted : String) :
    (scalar take wanted).Reads := by
  intro depth s a rest htext
  obtain ⟨⟨head, rest'⟩, hhead, htext⟩ := bind_eq_ok_iff.1 htext
  cases head with
  | scalar v =>
    obtain ⟨b, -, heq⟩ := bind_eq_ok_iff.1 htext
    cases heq
    exact ⟨v, readTree_of_scalar (lift_eq_ok_iff.1 hhead) depth⟩
  | openList => cases htext
  | openObject => cases htext

theorem readElements_of_reads {element : List Char → Except Fault (α × List Char)}
    {value : List Char → Except Fault (β × List Char)}
    (h : ∀ s a rest, element s = .ok (a, rest) → ∃ v, value s = .ok (v, rest)) {fuel : Nat} :
    ∀ {first : Bool} {s rest : List Char} {as : List α},
      readElements element fuel first s = .ok (as, rest) →
      ∃ vs, readElements value fuel first s = .ok (vs, rest) := by
  induction fuel with
  | zero =>
    intro first s rest as hread
    cases hread
  | succ fuel ih =>
    intro first s rest as hread
    obtain ⟨next, hnext, hread⟩ := bind_eq_ok_iff.1 hread
    rw [lift_eq_ok_iff] at hnext
    cases next with
    | close r =>
      cases hread
      exact ⟨[], readElements_of_close hnext⟩
    | more r =>
      obtain ⟨⟨a, r₁⟩, ha, hread⟩ := bind_eq_ok_iff.1 hread
      obtain ⟨⟨as', r₂⟩, has, hread⟩ := bind_eq_ok_iff.1 hread
      cases hread
      obtain ⟨v, hv⟩ := h r a r₁ ha
      obtain ⟨vs, hvs⟩ := ih has
      refine ⟨v :: vs, ?_⟩
      rw [readElements_of_more hnext, hv, ok_bind]
      simp only [hvs, ok_bind]
      rfl

theorem readMembers_of_reads {member : σ → String → List Char → Except Fault (σ × List Char)}
    {value : List Char → Except Fault (β × List Char)}
    (h : ∀ state key s state' rest, member state key s = .ok (state', rest) →
      ∃ t v, scanColon s = .ok t ∧ value t = .ok (v, rest)) {fuel : Nat} :
    ∀ {first : Bool} {s rest : List Char} {state state' : σ} (before : List (String × β)),
      readMembers member fuel first state s = .ok (state', rest) →
      ∃ ms, readMembers (readMember value) fuel first before s = .ok (ms, rest) := by
  induction fuel with
  | zero =>
    intro first s rest state state' before hread
    cases hread
  | succ fuel ih =>
    intro first s rest state state' before hread
    obtain ⟨next, hnext, hread⟩ := bind_eq_ok_iff.1 hread
    rw [lift_eq_ok_iff] at hnext
    cases next with
    | close r =>
      cases hread
      exact ⟨before, readMembers_of_close hnext⟩
    | more r =>
      obtain ⟨⟨key, r₁⟩, hkey, hread⟩ := bind_eq_ok_iff.1 hread
      obtain ⟨⟨state₁, r₂⟩, hmember, hread⟩ := bind_eq_ok_iff.1 hread
      obtain ⟨t, v, hcolon, hv⟩ := h _ _ _ _ _ hmember
      obtain ⟨ms, hms⟩ := ih ((key, v) :: before) hread
      have hput : readMember value before key r₁ = .ok ((key, v) :: before, r₂) := by
        rw [readMember, hcolon, lift_ok, ok_bind, hv]
        rfl
      refine ⟨ms, ?_⟩
      rw [readMembers_of_more hnext (lift_eq_ok_iff.1 hkey), hput, ok_bind]
      exact hms

theorem reads_list (h : d.Reads) : (list d).Reads := by
  intro depth s as rest htext
  obtain ⟨⟨head, t⟩, hhead, htext⟩ := bind_eq_ok_iff.1 htext
  rw [lift_eq_ok_iff] at hhead
  cases head with
  | scalar v => cases depth <;> cases htext
  | openObject => cases depth <;> cases htext
  | openList =>
    cases depth with
    | zero => cases htext
    | succ depth =>
      obtain ⟨vs, hvs⟩ := readElements_of_reads (h depth) htext
      refine ⟨.arr vs, ?_⟩
      rw [readTree, hhead, lift_ok, ok_bind]
      exact bind_eq_ok_iff.2 ⟨_, hvs, rfl⟩

/-- What is no field of its own such a record reads as a value. -/
theorem reads_openRecord {r : OpenRecord α} (h : ∀ f ∈ r.fields, f.value.Reads) :
    (openRecord r).Reads := by
  intro depth s a rest htext
  obtain ⟨⟨head, t⟩, hhead, htext⟩ := bind_eq_ok_iff.1 htext
  rw [lift_eq_ok_iff] at hhead
  cases head with
  | scalar v => cases depth <;> cases htext
  | openList => cases depth <;> cases htext
  | openObject =>
    cases depth with
    | zero => cases htext
    | succ depth =>
      obtain ⟨⟨state, rest'⟩, hread, htext⟩ := bind_eq_ok_iff.1 htext
      obtain ⟨b, -, heq⟩ := bind_eq_ok_iff.1 htext
      cases heq
      have hmember : ∀ state key s state' rest,
          readOrKeep r.fields depth state key s = .ok (state', rest) →
          ∃ t v, scanColon s = .ok t ∧ readTree depth t = .ok (v, rest) := by
        intro state key s state' rest hkeep
        rcases readOrKeep_eq_ok hkeep with
          ⟨f, hf, t, change, hcolon, hvalue, -⟩ | ⟨-, t, v, hcolon, hv, -⟩
        · obtain ⟨v, hv⟩ := h f hf depth t change rest hvalue
          exact ⟨t, v, hcolon, hv⟩
        · exact ⟨t, v, hcolon, hv⟩
      obtain ⟨ms, hms⟩ := readMembers_of_reads hmember [] hread
      refine ⟨.obj ms.reverse, ?_⟩
      rw [readTree, hhead, lift_ok, ok_bind]
      exact bind_eq_ok_iff.2 ⟨_, hms, rfl⟩

/-- **What such a decoder takes from a text it takes from the value of the text.** -/
theorem decodeText_eq_ok_iff (hagrees : d.Agrees) (hreads : d.Reads) {a : α} :
    d.decodeText s = .ok a ↔ ∃ v, StandsFor s v ∧ d.decode v = .ok a := by
  constructor
  · intro htext
    obtain ⟨⟨b, rest⟩, hb, hdone⟩ := bind_eq_ok_iff.1 htext
    obtain ⟨⟨⟩, hend, -⟩ := bind_eq_ok_iff.1 hdone
    have hblank : skipSpaces rest = [] := by
      rw [endDocument] at hend
      split at hend
      · assumption
      · cases hend
    obtain ⟨v, hv⟩ := hreads _ _ _ _ hb
    exact ⟨v, ⟨rest, hv, hblank⟩, (decodeText_of_readTree hagrees hv hblank).1 htext⟩
  · rintro ⟨v, ⟨rest, hv, hblank⟩, ha⟩
    exact (decodeText_of_readTree hagrees hv hblank).2 ha

end Decoder

end Json
end ModularHost
