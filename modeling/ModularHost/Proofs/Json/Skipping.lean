import ModularHost.Proofs.Json.Scanning
/-!
# Skipping

A value that nobody asked for is skipped, which is less strict than to read it. So whatever can be
read as a free-form value can be skipped, and either way the same characters are left
(`skipsTo_of_readTree`). The fuel of the skipper is used up by the characters it passes, at most two
for each.
-/


namespace ModularHost
namespace Json

/-- A value is skipped, given two steps for each character and one more. -/
structure SkipsTo (s rest : List Char) : Prop where
  shorter : rest.length < s.length
  skips : ∀ fuel, 2 * s.length < fuel → skipValue fuel s = .ok rest

theorem SkipsTo.skip {s rest : List Char} (h : SkipsTo s rest) : skip s = .ok rest := by
  rw [Json.skip, h.skips _ (by omega)]
  rfl

theorem skipValue_skipSpaces (fuel : Nat) (s : List Char) :
    skipValue fuel (skipSpaces s) = skipValue fuel s := by
  cases fuel with
  | zero => rfl
  | succ fuel => rw [skipValue, skipValue, skipSpaces_skipSpaces]

/-- Blanks before a value are skipped with it. -/
theorem SkipsTo.of_skipSpaces {s rest : List Char} (h : SkipsTo (skipSpaces s) rest) :
    SkipsTo s rest := by
  have hle := length_skipSpaces_le s
  have hshorter := h.shorter
  refine ⟨by omega, fun fuel hfuel => ?_⟩
  rw [← skipValue_skipSpaces]
  exact h.skips fuel (by omega)

/-! ## Scalars -/

/-- A scalar is skipped without regard to the fuel. -/
theorem SkipsTo.scalar {s t rest : List Char} {c : Char} (hs : skipSpaces s = c :: t)
    (hlen : rest.length ≤ t.length) (h : ∀ fuel, skipValue (fuel + 1) s = .ok rest) :
    SkipsTo s rest := by
  have hlt := length_lt_of_skipSpaces hs
  refine ⟨by omega, fun fuel hfuel => ?_⟩
  obtain ⟨fuel, rfl⟩ : ∃ n, fuel = n + 1 := ⟨fuel - 1, by omega⟩
  exact h fuel

/-- What begins with a digit is skipped as a number. -/
theorem skipValue_of_isDigit {s t rest : List Char} {c : Char} {n : Numeral}
    (hs : skipSpaces s = c :: t) (hdigit : c.isDigit = true)
    (h : scanNumeral .invalidNumber false (c :: t) = .ok (n, rest)) (fuel : Nat) :
    skipValue (fuel + 1) s = .ok rest := by
  simp only [skipValue, hs]
  split <;> simp_all [Except.map]

theorem skipsTo_of_scalar {s rest : List Char} {v : Json}
    (h : scanHead s = .ok (.scalar v, rest)) : SkipsTo s rest := by
  cases headOf_of_scanHead h with
  | null hs hscan | trueLiteral hs hscan | falseLiteral hs hscan =>
    exact .scalar hs (length_scanLiteral_le hscan) fun fuel => by simp only [skipValue, hs, hscan]
  | string hs hscan =>
    obtain ⟨hskip, hlen⟩ := skipString_of_scan hscan
    exact .scalar hs hlen.le fun fuel => by simp only [skipValue, hs, hskip]
  | negative hs hscan =>
    obtain ⟨hskip, hlen⟩ := scanNumeral_congr hscan .invalidNumber
    exact .scalar hs hlen.le fun fuel => by simp only [skipValue, hs, hskip, Except.map]
  | @number c t _ n _ hs hdigit hscan =>
    obtain ⟨hskip, hlen⟩ := scanNumeral_congr hscan .invalidNumber
    exact .scalar hs (Nat.le_of_lt_succ hlen) (skipValue_of_isDigit hs hdigit hskip)

/-! ## Lists -/

/-- What is left of a list behind one of its elements is skipped up to its end. -/
structure EndsList (s rest : List Char) : Prop where
  shorter : rest.length < s.length
  skips : ∀ fuel t, 2 * s.length < fuel → skipValue fuel t = .ok s →
    skipElements (fuel + 1) t = .ok rest

variable {α σ : Type} {s t rest : List Char}

theorem EndsList.close (hs : skipSpaces s = ']' :: rest) : EndsList s rest := by
  refine ⟨length_lt_of_skipSpaces hs, fun fuel t _ ht => ?_⟩
  rw [skipElements, ht]
  simp only [bind, Except.bind, hs]
  rfl

theorem EndsList.more {r : List Char} (hs : skipSpaces s = ',' :: t) (ht : SkipsTo t r)
    (hr : EndsList r rest) : EndsList s rest := by
  have hlen := length_lt_of_skipSpaces hs
  have hlen₁ := ht.shorter
  have hlen₂ := hr.shorter
  refine ⟨by omega, fun fuel u hfuel hu => ?_⟩
  obtain ⟨fuel, rfl⟩ : ∃ n, fuel = n + 1 := ⟨fuel - 1, by omega⟩
  rw [skipElements, hu]
  simp only [bind, Except.bind, hs]
  exact hr.skips fuel t (by omega) (ht.skips fuel (by omega))

theorem SkipsTo.emptyList (hs : skipSpaces s = '[' :: t) (ht : skipSpaces t = ']' :: rest) :
    SkipsTo s rest := by
  have hlen := length_lt_of_skipSpaces hs
  have hlen' := length_lt_of_skipSpaces ht
  refine ⟨by omega, fun fuel hfuel => ?_⟩
  obtain ⟨fuel, rfl⟩ : ∃ n, fuel = n + 1 := ⟨fuel - 1, by omega⟩
  simp only [skipValue, hs, ht]

/-- The first element is skipped, and then the rest of the list. -/
theorem SkipsTo.list {r u : List Char} (hs : skipSpaces s = '[' :: t) (ht : skipSpaces t = r)
    (hr : ∃ c x, r = c :: x ∧ c ≠ ']') (hfirst : SkipsTo r u) (hrest : EndsList u rest) :
    SkipsTo s rest := by
  obtain ⟨c, x, rfl, hc⟩ := hr
  have hlen := length_lt_of_skipSpaces hs
  have hle := length_skipSpaces_le t
  have hlen₁ := hfirst.shorter
  have hlen₂ := hrest.shorter
  rw [ht] at hle
  refine ⟨by omega, fun fuel hfuel => ?_⟩
  obtain ⟨fuel, rfl⟩ : ∃ n, fuel = n + 2 := ⟨fuel - 2, by omega⟩
  simp only [skipValue, hs, ht]
  exact hrest.skips fuel _ (by omega) (hfirst.skips fuel (by omega))

section Elements

variable {element : List Char → Except Fault (α × List Char)}

theorem endsList_of_read (helement : ∀ s a r, element s = .ok (a, r) → SkipsTo s r) {fuel : Nat} :
    ∀ {s : List Char} {as : List α}, readElements element fuel false s = .ok (as, rest) →
      EndsList s rest := by
  induction fuel with
  | zero =>
    intro s as h
    cases h
  | succ fuel ih =>
    intro s as h
    obtain ⟨next, hnext, h⟩ := bind_eq_ok_iff.1 h
    rw [lift_eq_ok_iff] at hnext
    cases next with
    | close r =>
      cases h
      exact .close (nextElement_eq_close hnext)
    | more r =>
      obtain ⟨⟨a, r₁⟩, ha, h⟩ := bind_eq_ok_iff.1 h
      obtain ⟨⟨as', r₂⟩, has, h⟩ := bind_eq_ok_iff.1 h
      cases h
      obtain ⟨-, ⟨⟨⟩, -⟩ | ⟨-, t, hs, rfl⟩⟩ := nextElement_eq_more hnext
      exact .more hs (helement _ _ _ ha).of_skipSpaces (ih has)

/-- **A list that can be read can be skipped.** -/
theorem skipsTo_list (helement : ∀ s a r, element s = .ok (a, r) → SkipsTo s r) {fuel : Nat}
    {as : List α} (hs : skipSpaces s = '[' :: t)
    (h : readElements element fuel true t = .ok (as, rest)) : SkipsTo s rest := by
  cases fuel with
  | zero => cases h
  | succ fuel =>
    obtain ⟨next, hnext, h⟩ := bind_eq_ok_iff.1 h
    rw [lift_eq_ok_iff] at hnext
    cases next with
    | close r =>
      cases h
      exact .emptyList hs (nextElement_eq_close hnext)
    | more r =>
      obtain ⟨⟨a, r₁⟩, ha, h⟩ := bind_eq_ok_iff.1 h
      obtain ⟨⟨as', r₂⟩, has, h⟩ := bind_eq_ok_iff.1 h
      cases h
      obtain ⟨hr, ⟨-, ht⟩ | ⟨⟨⟩, -⟩⟩ := nextElement_eq_more hnext
      exact .list hs ht hr (helement _ _ _ ha) (endsList_of_read helement has)

end Elements

/-! ## Objects -/

/-- A member, from before its key, is skipped with some fuel for its value. -/
def SkipsMember (fuel : Nat) (s rest : List Char) : Prop :=
  ∃ t u v, skipSpaces s = '"' :: t ∧ skipString t = .ok u ∧ scanColon u = .ok v ∧
    skipValue fuel v = .ok rest

/-- What is left of an object behind one of its members is skipped up to its end. -/
structure EndsObject (s rest : List Char) : Prop where
  shorter : rest.length < s.length
  skips : ∀ fuel t, 2 * s.length < fuel → SkipsMember fuel t s →
    skipMembers (fuel + 1) t = .ok rest

theorem EndsObject.close (hs : skipSpaces s = '}' :: rest) : EndsObject s rest := by
  refine ⟨length_lt_of_skipSpaces hs, fun fuel t _ ht => ?_⟩
  obtain ⟨u, v, w, hquote, hkey, hcolon, hvalue⟩ := ht
  simp only [skipMembers, hquote, hkey, hcolon, hvalue, hs, bind, Except.bind, pure, Except.pure]

theorem EndsObject.more {r : List Char} (hs : skipSpaces s = ',' :: t)
    (ht : ∀ fuel, 2 * t.length < fuel → SkipsMember fuel t r) (hlen : r.length < t.length)
    (hr : EndsObject r rest) : EndsObject s rest := by
  have hlen₁ := length_lt_of_skipSpaces hs
  have hlen₂ := hr.shorter
  refine ⟨by omega, fun fuel x hfuel hx => ?_⟩
  obtain ⟨fuel, rfl⟩ : ∃ n, fuel = n + 1 := ⟨fuel - 1, by omega⟩
  obtain ⟨u, v, w, hquote, hkey, hcolon, hvalue⟩ := hx
  simp only [skipMembers, hquote, hkey, hcolon, hvalue, hs, bind, Except.bind]
  exact hr.skips fuel t (by omega) (ht fuel (by omega))

theorem SkipsTo.emptyObject (hs : skipSpaces s = '\x7b' :: t) (ht : skipSpaces t = '}' :: rest) :
    SkipsTo s rest := by
  have hlen := length_lt_of_skipSpaces hs
  have hlen' := length_lt_of_skipSpaces ht
  refine ⟨by omega, fun fuel hfuel => ?_⟩
  obtain ⟨fuel, rfl⟩ : ∃ n, fuel = n + 1 := ⟨fuel - 1, by omega⟩
  simp only [skipValue, hs, ht]

/-- The first member is skipped, and then the rest of the object. -/
theorem SkipsTo.object {r u : List Char} (hs : skipSpaces s = '\x7b' :: t) (ht : skipSpaces t = r)
    (hr : ∃ c x, r = c :: x ∧ c ≠ '}') (hfirst : ∀ n, 2 * r.length < n → SkipsMember n r u)
    (hlen : u.length < r.length) (hrest : EndsObject u rest) : SkipsTo s rest := by
  obtain ⟨c, x, rfl, hc⟩ := hr
  have hlen₁ := length_lt_of_skipSpaces hs
  have hlen₂ := hrest.shorter
  have hle := length_skipSpaces_le t
  rw [ht] at hle
  refine ⟨by omega, fun fuel hfuel => ?_⟩
  obtain ⟨fuel, rfl⟩ : ∃ n, fuel = n + 2 := ⟨fuel - 2, by omega⟩
  simp only [skipValue, hs, ht]
  exact hrest.skips fuel _ (by omega) (hfirst fuel (by omega))

section Members

/-- A reader of members passes the colon and a value that can be skipped. -/
def PassesMember (member : σ → String → List Char → Except Fault (σ × List Char)) : Prop :=
  ∀ state key s state' rest, member state key s = .ok (state', rest) →
    ∃ t, scanColon s = .ok t ∧ SkipsTo t rest

variable {member : σ → String → List Char → Except Fault (σ × List Char)} {state state' : σ}

/-- A member is skipped with its key. -/
theorem skipsMember_of_skips {key : String} {r u v : List Char} (hs : skipSpaces s = '"' :: t)
    (hkey : scanString t = .ok (key, r)) (hcolon : scanColon r = .ok v) (hvalue : SkipsTo v u) :
    (∀ fuel, 2 * s.length < fuel → SkipsMember fuel s u) ∧ u.length < s.length := by
  obtain ⟨hskip, hlen₁⟩ := skipString_of_scan hkey
  have hlen₂ := length_lt_of_skipSpaces (scanColon_eq_ok hcolon)
  have hlen₃ := length_lt_of_skipSpaces hs
  have hlen₄ := hvalue.shorter
  exact ⟨fun fuel hfuel => ⟨t, r, v, hs, hskip, hcolon, hvalue.skips fuel (by omega)⟩, by omega⟩

theorem PassesMember.skipsMember (h : PassesMember member) {key : String} {r u : List Char}
    (hs : skipSpaces s = '"' :: t) (hkey : scanString t = .ok (key, r))
    (hmember : member state key r = .ok (state', u)) :
    (∀ fuel, 2 * s.length < fuel → SkipsMember fuel s u) ∧ u.length < s.length := by
  obtain ⟨v, hcolon, hvalue⟩ := h _ _ _ _ _ hmember
  exact skipsMember_of_skips hs hkey hcolon hvalue

theorem endsObject_of_read (hmember : PassesMember member) {fuel : Nat} :
    ∀ {state : σ} {s : List Char}, readMembers member fuel false state s = .ok (state', rest) →
      EndsObject s rest := by
  induction fuel with
  | zero =>
    intro state s h
    cases h
  | succ fuel ih =>
    intro state s h
    obtain ⟨next, hnext, h⟩ := bind_eq_ok_iff.1 h
    rw [lift_eq_ok_iff] at hnext
    cases next with
    | close r =>
      cases h
      exact .close (nextMember_eq_close hnext)
    | more r =>
      obtain ⟨⟨key, r₁⟩, hkey, h⟩ := bind_eq_ok_iff.1 h
      obtain ⟨⟨state₁, r₂⟩, hstep, h⟩ := bind_eq_ok_iff.1 h
      rw [lift_eq_ok_iff] at hkey
      obtain ⟨⟨⟩, -⟩ | ⟨-, t, hs, ht⟩ := nextMember_eq_more hnext
      obtain ⟨hskip, hlen⟩ := hmember.skipsMember ht hkey hstep
      exact .more hs hskip hlen (ih h)

/-- **An object that can be read can be skipped.** -/
theorem skipsTo_object (hmember : PassesMember member) {fuel : Nat}
    (hs : skipSpaces s = '\x7b' :: t)
    (h : readMembers member fuel true state t = .ok (state', rest)) : SkipsTo s rest := by
  cases fuel with
  | zero => cases h
  | succ fuel =>
    obtain ⟨next, hnext, h⟩ := bind_eq_ok_iff.1 h
    rw [lift_eq_ok_iff] at hnext
    cases next with
    | close r =>
      cases h
      exact .emptyObject hs (nextMember_eq_close hnext)
    | more r =>
      obtain ⟨⟨key, r₁⟩, hkey, h⟩ := bind_eq_ok_iff.1 h
      obtain ⟨⟨state₁, r₂⟩, hstep, h⟩ := bind_eq_ok_iff.1 h
      rw [lift_eq_ok_iff] at hkey
      obtain ⟨-, ht⟩ | ⟨⟨⟩, -⟩ := nextMember_eq_more hnext
      obtain ⟨hskip, hlen⟩ := hmember.skipsMember (skipSpaces_of_eq_cons ht) hkey hstep
      exact .object hs ht ⟨_, _, rfl, by decide⟩ hskip hlen (endsObject_of_read hmember h)

end Members

/-! ## What was skipped -/

/-- **What was skipped with some fuel is skipped with enough.** -/
theorem skipped (fuel : Nat) :
    (∀ s rest, skipValue fuel s = .ok rest → SkipsTo s rest) ∧
    (∀ s rest, skipElements fuel s = .ok rest → ∃ r, SkipsTo s r ∧ EndsList r rest) ∧
    ∀ s rest, skipMembers fuel s = .ok rest →
      ∃ r, (∀ n, 2 * s.length < n → SkipsMember n s r) ∧ r.length < s.length ∧
        EndsObject r rest := by
  induction fuel with
  -- all three at once, since each skips its parts by the others with less fuel
  | zero => exact ⟨(fun _ _ h => by cases h), (fun _ _ h => by cases h), fun _ _ h => by cases h⟩
  | succ fuel ih =>
    obtain ⟨hvalue, helements, hmembers⟩ := ih
    refine ⟨fun s rest h => ?_, fun s rest h => ?_, fun s rest h => ?_⟩
    · rw [skipValue] at h
      split at h
      · cases h
      · rename_i hs
        exact .scalar hs (length_scanLiteral_le h) fun n => by simp only [skipValue, hs, h]
      · rename_i hs
        exact .scalar hs (length_scanLiteral_le h) fun n => by simp only [skipValue, hs, h]
      · rename_i hs
        exact .scalar hs (length_scanLiteral_le h) fun n => by simp only [skipValue, hs, h]
      · rename_i hs
        exact .scalar hs (length_skipCharacters h).le fun n => by simp only [skipValue, hs, h]
      · rename_i t hs
        split at h
        · cases h
        · rename_i ht
          cases h
          exact .emptyList hs ht
        · rename_i c u hc ht
          obtain ⟨r, hfirst, hrest⟩ := helements _ _ h
          exact .list hs ht ⟨c, u, rfl, hc⟩ hfirst hrest
      · rename_i t hs
        split at h
        · cases h
        · rename_i ht
          cases h
          exact .emptyObject hs ht
        · rename_i c u hc ht
          obtain ⟨r, hfirst, hlen, hrest⟩ := hmembers _ _ h
          exact .object hs ht ⟨c, u, rfl, hc⟩ hfirst hlen hrest
      · rename_i hs
        obtain ⟨⟨n, r⟩, hscan, rfl⟩ := map_eq_ok_iff.1 h
        exact .scalar hs (scanNumeral_congr hscan .invalidNumber).2.le fun n => by
          simp only [skipValue, hs, h]
      · rename_i c t hn ht hf hquote hlist hobject hminus hs
        split at h
        · rename_i hdigit
          obtain ⟨⟨n, r⟩, hscan, rfl⟩ := map_eq_ok_iff.1 h
          exact .scalar hs (Nat.le_of_lt_succ (scanNumeral_congr hscan .invalidNumber).2)
            (skipValue_of_isDigit hs hdigit hscan)
        · cases h
    · rw [skipElements] at h
      obtain ⟨r, hr, h⟩ := bind_eq_ok_iff.1 h
      refine ⟨r, hvalue _ _ hr, ?_⟩
      split at h
      · cases h
      · rename_i hclose
        cases h
        exact .close hclose
      · rename_i t hcomma
        obtain ⟨u, hfirst, hrest⟩ := helements _ _ h
        exact .more hcomma hfirst hrest
      · cases h
    · rw [skipMembers] at h
      split at h
      · cases h
      · rename_i t hs
        obtain ⟨u, hkey, h⟩ := bind_eq_ok_iff.1 h
        obtain ⟨v, hcolon, h⟩ := bind_eq_ok_iff.1 h
        obtain ⟨r, hr, h⟩ := bind_eq_ok_iff.1 h
        have hskip := hvalue _ _ hr
        have hlen₁ := length_lt_of_skipSpaces hs
        have hlen₂ := length_skipCharacters hkey
        have hlen₃ := length_lt_of_skipSpaces (scanColon_eq_ok hcolon)
        have hlen₄ := hskip.shorter
        refine ⟨r, fun n hn => ⟨t, u, v, hs, hkey, hcolon, hskip.skips n (by omega)⟩,
          by omega, ?_⟩
        split at h
        · cases h
        · rename_i hclose
          cases h
          exact .close hclose
        · rename_i w hcomma
          obtain ⟨x, hfirst, hlen, hrest⟩ := hmembers _ _ h
          exact .more hcomma hfirst hlen hrest
        · cases h
      · cases h

theorem skipsTo_of_skip (h : skip s = .ok rest) : SkipsTo s rest :=
  (skipped _).1 s rest (lift_eq_ok_iff.1 h)

/-! ## Values -/

theorem passesMember_readMember {value : List Char → Except Fault (α × List Char)}
    (h : ∀ s a r, value s = .ok (a, r) → SkipsTo s r) : PassesMember (readMember value) := by
  intro before key s after rest hmember
  obtain ⟨t, a, hcolon, hvalue, -⟩ := readMember_eq_ok hmember
  exact ⟨t, hcolon, h _ _ _ hvalue⟩

/-- **A value that can be read can be skipped.** -/
theorem skipsTo_of_readTree (depth : Nat) :
    ∀ s v rest, readTree depth s = .ok (v, rest) → SkipsTo s rest := by
  induction depth with
  | zero =>
    intro s v rest h
    unfold readTree at h
    obtain ⟨⟨head, r⟩, hhead, h⟩ := bind_eq_ok_iff.1 h
    rw [lift_eq_ok_iff] at hhead
    cases head with
    | scalar w =>
      cases h
      exact skipsTo_of_scalar hhead
    | openList => cases h
    | openObject => cases h
  | succ depth ih =>
    intro s v rest h
    unfold readTree at h
    obtain ⟨⟨head, r⟩, hhead, h⟩ := bind_eq_ok_iff.1 h
    rw [lift_eq_ok_iff] at hhead
    rcases scanHead_cases hhead with ⟨w, rfl⟩ | ⟨rfl, hs⟩ | ⟨rfl, hs⟩
    · cases h
      exact skipsTo_of_scalar hhead
    · obtain ⟨⟨vs, r'⟩, hread, h⟩ := bind_eq_ok_iff.1 h
      cases h
      exact skipsTo_list ih hs hread
    · obtain ⟨⟨ms, r'⟩, hread, h⟩ := bind_eq_ok_iff.1 h
      cases h
      exact skipsTo_object (passesMember_readMember ih) hs hread

end Json
end ModularHost
