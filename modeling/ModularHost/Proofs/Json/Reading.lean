import Mathlib.Data.List.Basic
import ModularHost.Proofs.Json.Scanning
/-!
# How values are read from texts

What the head of a value shows of it (`scalar_of_scanHead`), and how the rest is read bracket by
bracket (`readTree_cases`).

Two readers may go over the same text, a second one that does to each element what could be done to
the value which a first one made of it. Then the second does to the whole what could be done to all
the first has read (`mirrors_readElements`, `mirrors_readMembers`).
-/


namespace ModularHost
namespace Json

variable {α β σ : Type}

/-! ## Steps over a text -/

/-- A step over a text does what another step does without one, and leaves `rest` of the text. -/
def Mirrors (x : Except Fault (α × List Char)) (y : Except Fault α) (rest : List Char) : Prop :=
  ∀ a u, x = .ok (a, u) ↔ y = .ok a ∧ u = rest

namespace Mirrors

variable {x : Except Fault (α × List Char)} {y : Except Fault α} {r rest : List Char}

theorem pure (a : α) (rest : List Char) : Mirrors (.ok (a, rest)) (.ok a) rest := by
  intro b u
  simp [eq_comm]

theorem error (e e' : Fault) (rest : List Char) :
    Mirrors (.error e : Except Fault (α × List Char)) (.error e') rest := by
  intro b u
  simp

theorem of_not_ok (hx : ∀ a, x ≠ .ok a) (hy : ∀ a, y ≠ .ok a) : Mirrors x y rest :=
  fun a _ => ⟨fun h => absurd h (hx _), fun h => absurd h.1 (hy a)⟩

theorem bind {f : α × List Char → Except Fault (β × List Char)} {g : α → Except Fault β}
    (hx : Mirrors x y r) (hf : ∀ a, Mirrors (f (a, r)) (g a) rest) :
    Mirrors (x >>= f) (y >>= g) rest := by
  intro b u
  simp only [bind_eq_ok_iff]
  constructor
  · rintro ⟨⟨a, v⟩, ha, hb⟩
    obtain ⟨hy, rfl⟩ := (hx a v).1 ha
    obtain ⟨hg, rfl⟩ := (hf a b u).1 hb
    exact ⟨⟨a, hy, hg⟩, rfl⟩
  · rintro ⟨⟨a, hy, hg⟩, rfl⟩
    exact ⟨(a, r), (hx a r).2 ⟨hy, rfl⟩, (hf a b _).2 ⟨hg, rfl⟩⟩

/-- A judgement that passes on what it judges. -/
theorem judge (y : Except Fault α) (rest : List Char) :
    Mirrors (y >>= fun a => .ok (a, rest)) y rest := by
  intro b u
  cases y <;> simp [Bind.bind, Except.bind, eq_comm]

theorem map (hx : Mirrors x y rest) (f : α → β) :
    Mirrors (x.map fun (a, r) => (f a, r)) (y.map f) rest := by
  intro b u
  simp only [map_eq_ok_iff]
  constructor
  · rintro ⟨⟨a, v⟩, ha, heq⟩
    cases heq
    obtain ⟨hy, rfl⟩ := (hx a v).1 ha
    exact ⟨⟨a, hy, rfl⟩, rfl⟩
  · rintro ⟨⟨a, hy, rfl⟩, rfl⟩
    exact ⟨_, (hx a _).2 ⟨hy, rfl⟩, rfl⟩

end Mirrors

/-- Elements are read as the first reader's values are judged. -/
theorem mirrors_readElements {value : List Char → Except Fault (β × List Char)}
    {element : List Char → Except Fault (α × List Char)} {step : β → Except Fault α}
    (h : ∀ s w r, value s = .ok (w, r) → Mirrors (element s) (step w) r) {fuel : Nat} :
    ∀ {first : Bool} {s rest : List Char} {ws : List β},
      readElements value fuel first s = .ok (ws, rest) →
      Mirrors (readElements element fuel first s) (ws.mapM step) rest := by
  induction fuel with
  | zero =>
    intro first s rest ws hread
    cases hread
  | succ fuel ih =>
    intro first s rest ws hread
    obtain ⟨next, hnext, hread⟩ := bind_eq_ok_iff.1 hread
    rw [lift_eq_ok_iff] at hnext
    cases next with
    | close r =>
      cases hread
      rw [readElements_of_close hnext]
      exact .pure [] rest
    | more r =>
      obtain ⟨⟨w, r₁⟩, hw, hread⟩ := bind_eq_ok_iff.1 hread
      obtain ⟨⟨ws', r₂⟩, hws, hread⟩ := bind_eq_ok_iff.1 hread
      cases hread
      rw [readElements_of_more hnext, List.mapM_cons]
      exact (h r w r₁ hw).bind fun a => (ih hws).bind fun as => .pure (a :: as) rest

/-- Members are read as what the first reader made of them is folded. -/
theorem mirrors_readMembers {value : List Char → Except Fault (β × List Char)}
    {member : σ → String → List Char → Except Fault (σ × List Char)}
    {step : σ → String × β → Except Fault σ}
    (h : ∀ key s t w r, scanColon s = .ok t → value t = .ok (w, r) →
      ∀ state, Mirrors (member state key s) (step state (key, w)) r)
    {fuel : Nat} : ∀ {first : Bool} {s rest : List Char} {before after : List (String × β)},
      readMembers (readMember value) fuel first before s = .ok (after, rest) →
      ∃ ms : List (String × β), after = ms.reverse ++ before ∧ ∀ state,
        Mirrors (readMembers member fuel first state s) (ms.foldlM step state) rest := by
  induction fuel with
  | zero =>
    intro first s rest before after hread
    cases hread
  | succ fuel ih =>
    intro first s rest before after hread
    obtain ⟨next, hnext, hread⟩ := bind_eq_ok_iff.1 hread
    rw [lift_eq_ok_iff] at hnext
    cases next with
    | close r =>
      cases hread
      refine ⟨[], rfl, fun state => ?_⟩
      rw [readMembers_of_close hnext]
      exact .pure state rest
    | more r =>
      obtain ⟨⟨key, r₁⟩, hkey, hread⟩ := bind_eq_ok_iff.1 hread
      obtain ⟨⟨before', r₂⟩, hmember, hread⟩ := bind_eq_ok_iff.1 hread
      obtain ⟨t, hcolon, hmember⟩ := bind_eq_ok_iff.1 hmember
      obtain ⟨⟨w, r₃⟩, hw, hmember⟩ := bind_eq_ok_iff.1 hmember
      cases hmember
      obtain ⟨ms, rfl, htail⟩ := ih hread
      refine ⟨(key, w) :: ms, by simp, fun state => ?_⟩
      rw [readMembers_of_more hnext (lift_eq_ok_iff.1 hkey), List.foldlM_cons]
      exact (h key r₁ t w r₂ (lift_eq_ok_iff.1 hcolon) hw state).bind htail

/-! ## What a text stands for -/

/-- A value without parts. -/
def IsScalar : Json → Prop
  | .arr _ | .obj _ | .date _ => False
  | _ => True

/-- A numeral means a number. -/
theorem Numeral.value_cases {n : Numeral} {v : Json} (h : n.value = .ok v) :
    (∃ i, v = .int i) ∨ ∃ x, v = .real x := by
  unfold Numeral.value at h
  dsimp only at h
  split at h
  · cases h
    exact .inl ⟨_, rfl⟩
  · split at h
    · cases h
      exact .inl ⟨_, rfl⟩
    · split at h
      -- without an exponent, and with one that is too great or is counted
      · split at h
        · cases h
          exact .inr ⟨_, rfl⟩
        · cases h
      · split at h
        · split at h
          · cases h
          · cases h
            exact .inr ⟨_, rfl⟩
        · split at h
          · cases h
            exact .inr ⟨_, rfl⟩
          · cases h

/-- What the head of a value shows: null begins with its letter, a string with its quote. -/
theorem scalar_of_scanHead {s rest : List Char} {v : Json}
    (h : scanHead s = .ok (.scalar v, rest)) :
    v.IsScalar ∧ (v = .null ↔ ∃ t, skipSpaces s = 'n' :: t) ∧
      ((∃ name, v = .str name) ↔ ∃ t, skipSpaces s = '"' :: t) := by
  have hnumber : ∀ {n : Numeral}, n.value = .ok v →
      v.IsScalar ∧ v ≠ .null ∧ ∀ name, v ≠ .str name := by
    intro n hv
    rcases n.value_cases hv with ⟨i, rfl⟩ | ⟨x, rfl⟩
    · exact ⟨trivial, Json.noConfusion, fun _ => Json.noConfusion⟩
    · exact ⟨trivial, Json.noConfusion, fun _ => Json.noConfusion⟩
  cases headOf_of_scanHead h with
  | null hs | trueLiteral hs | falseLiteral hs | string hs =>
    rw [hs]
    exact ⟨trivial, by simp, by simp⟩
  | negative hs _ hvalue =>
    obtain ⟨hv, hnull, hstr⟩ := hnumber hvalue
    rw [hs]
    exact ⟨hv, by simp [hnull], by simp [hstr]⟩
  | number hs hdigit _ hvalue =>
    obtain ⟨hv, hnull, hstr⟩ := hnumber hvalue
    have hletter : ∀ d u, d.isDigit = false → skipSpaces s ≠ d :: u := by
      intro d u hd heq
      rw [hs] at heq
      cases heq
      rw [hdigit] at hd
      cases hd
    refine ⟨hv, ⟨fun heq => absurd heq hnull, fun ⟨u, heq⟩ => ?_⟩,
      ⟨fun ⟨name, heq⟩ => absurd heq (hstr name), fun ⟨u, heq⟩ => ?_⟩⟩
    · exact absurd heq (hletter 'n' u rfl)
    · exact absurd heq (hletter '"' u rfl)

/-- **How a value is read**: as a scalar, or bracket by bracket with one less to open. -/
theorem readTree_cases {depth : Nat} {s rest : List Char} {v : Json}
    (h : readTree depth s = .ok (v, rest)) :
    (scanHead s = .ok (.scalar v, rest) ∧ v.IsScalar) ∨
    (∃ inner t vs, depth = inner + 1 ∧ scanHead s = .ok (.openList, t) ∧ v = .arr vs ∧
      readElements (readTree inner) (t.length + 1) true t = .ok (vs, rest)) ∨
    ∃ inner t ms, depth = inner + 1 ∧ scanHead s = .ok (.openObject, t) ∧
      v = .obj (List.reverse ms) ∧
      readMembers (readMember (readTree inner)) (t.length + 1) true [] t = .ok (ms, rest) := by
  cases depth with
  | zero =>
    rw [readTree] at h
    obtain ⟨⟨head, t⟩, hhead, h⟩ := bind_eq_ok_iff.1 h
    rw [lift_eq_ok_iff] at hhead
    cases head with
    | scalar w =>
      cases h
      exact .inl ⟨hhead, (scalar_of_scanHead hhead).1⟩
    | openList => cases h
    | openObject => cases h
  | succ inner =>
    rw [readTree] at h
    obtain ⟨⟨head, t⟩, hhead, h⟩ := bind_eq_ok_iff.1 h
    rw [lift_eq_ok_iff] at hhead
    cases head with
    | scalar w =>
      cases h
      exact .inl ⟨hhead, (scalar_of_scanHead hhead).1⟩
    | openList =>
      obtain ⟨⟨vs, r⟩, hread, h⟩ := bind_eq_ok_iff.1 h
      cases h
      exact .inr (.inl ⟨inner, t, vs, rfl, hhead, rfl, hread⟩)
    | openObject =>
      obtain ⟨⟨ms, r⟩, hread, h⟩ := bind_eq_ok_iff.1 h
      cases h
      exact .inr (.inr ⟨inner, t, ms, rfl, hhead, rfl, hread⟩)

/-- Blanks before a value are read with it. -/
theorem readTree_skipSpaces (depth : Nat) (s : List Char) :
    readTree depth (skipSpaces s) = readTree depth s := by
  have hhead : scanHead (skipSpaces s) = scanHead s := by
    rw [scanHead, scanHead, skipSpaces_skipSpaces]
  cases depth <;> rw [readTree, readTree, hhead]

/-- Null is the one value that begins with its letter. -/
theorem eq_null_iff {depth : Nat} {s rest : List Char} {v : Json}
    (h : readTree depth s = .ok (v, rest)) : v = .null ↔ ∃ t, skipSpaces s = 'n' :: t := by
  rcases readTree_cases h with ⟨hhead, -⟩ | ⟨_, t, vs, -, hhead, rfl, -⟩ |
    ⟨_, t, ms, -, hhead, rfl, -⟩
  · exact (scalar_of_scanHead hhead).2.1
  · rcases scanHead_cases hhead with ⟨w, hw⟩ | ⟨-, hs⟩ | ⟨hw, -⟩
    · cases hw
    · simp [hs]
    · cases hw
  · rcases scanHead_cases hhead with ⟨w, hw⟩ | ⟨hw, -⟩ | ⟨-, hs⟩
    · cases hw
    · cases hw
    · simp [hs]

/-- What begins with a quote is a string. -/
theorem scanHead_of_quote {s t rest : List Char} {v : Json} (hs : skipSpaces s = '"' :: t)
    (h : scanHead s = .ok (.scalar v, rest)) :
    ∃ name, v = .str name ∧ scanString t = .ok (name, rest) := by
  simp only [scanHead, hs] at h
  obtain ⟨⟨name, r⟩, hname, heq⟩ := map_eq_ok_iff.1 h
  cases heq
  exact ⟨name, rfl, hname⟩

theorem readMembers_extends {value : List Char → Except Fault (β × List Char)} {fuel : Nat} :
    ∀ {first : Bool} {s rest : List Char} {before after : List (String × β)},
      readMembers (readMember value) fuel first before s = .ok (after, rest) →
      ∃ ms, after = ms ++ before := by
  induction fuel with
  | zero =>
    intro first s rest before after h
    cases h
  | succ fuel ih =>
    intro first s rest before after h
    obtain ⟨next, hnext, h⟩ := bind_eq_ok_iff.1 h
    cases next with
    | close r =>
      cases h
      exact ⟨[], rfl⟩
    | more r =>
      obtain ⟨⟨key, r₁⟩, -, h⟩ := bind_eq_ok_iff.1 h
      obtain ⟨⟨before', r₂⟩, hmember, h⟩ := bind_eq_ok_iff.1 h
      obtain ⟨t, -, hmember⟩ := bind_eq_ok_iff.1 hmember
      obtain ⟨⟨w, r₃⟩, -, hmember⟩ := bind_eq_ok_iff.1 hmember
      cases hmember
      obtain ⟨ms, rfl⟩ := ih h
      exact ⟨ms ++ [(key, w)], by simp⟩

/-- Behind its first member an object either closes or has more members. -/
theorem readMembers_rest {value : List Char → Except Fault (β × List Char)} {fuel : Nat}
    {s rest : List Char} {m : String × β} {after : List (String × β)}
    (h : readMembers (readMember value) fuel false [m] s = .ok (after, rest)) :
    (after = [m] ∧ skipSpaces s = '}' :: rest) ∨
      (∃ t, skipSpaces s = ',' :: t) ∧ ∃ m₁ m₂ ms, after.reverse = m₁ :: m₂ :: ms := by
  cases fuel with
  | zero => cases h
  | succ fuel =>
    obtain ⟨next, hnext, h⟩ := bind_eq_ok_iff.1 h
    rw [lift_eq_ok_iff] at hnext
    cases next with
    | close r =>
      cases h
      exact .inl ⟨rfl, nextMember_eq_close hnext⟩
    | more r =>
      obtain ⟨⟨key, r₁⟩, -, h⟩ := bind_eq_ok_iff.1 h
      obtain ⟨⟨before, r₂⟩, hmember, h⟩ := bind_eq_ok_iff.1 h
      obtain ⟨t, -, hmember⟩ := bind_eq_ok_iff.1 hmember
      obtain ⟨⟨w, r₃⟩, -, hmember⟩ := bind_eq_ok_iff.1 hmember
      cases hmember
      obtain ⟨ms, rfl⟩ := readMembers_extends h
      obtain ⟨⟨⟩, -⟩ | ⟨-, t', hs, -⟩ := nextMember_eq_more hnext
      exact .inr ⟨⟨t', hs⟩, m, (key, w), ms.reverse, by simp⟩

end Json
end ModularHost
