import Mathlib.Data.List.DropRight
import ModularHost.Connector.BringUp
import ModularHost.Proofs.Container.Attempt
/-!
# What a connector serves

A section is judged first, then the name it gives is resolved, then the route is taken. The name is
the text of the section without its blank ends, while a binding is found by its exact name. So a
connector serves the binding of that trimmed name and no other (`bringUp_serves_trimmed`), and a
binding whose own name has blank ends is out of every section's reach.
-/


namespace ModularHost

/-! ## Names without blank ends -/

namespace Text

/-- What is left of a list has no blank ends. -/
theorem trimList_trimList (cs : List Char) : trimList (trimList cs) = trimList cs := by
  have hbegins : trimList cs <+: cs.dropWhile isBlankChar := List.rdropWhile_prefix _ _
  -- it begins as the list does once its blank beginning is gone
  have hhead : (trimList cs).dropWhile isBlankChar = trimList cs := by
    refine List.dropWhile_eq_self_iff.2 fun hlen => ?_
    have hlen' := hlen.trans_le hbegins.length_le
    rw [hbegins.getElem hlen]
    exact List.dropWhile_get_zero_not _ _ hlen'
  rw [trimList, hhead]
  exact List.rdropWhile_idempotent isBlankChar (cs.dropWhile isBlankChar)

/-- A list is left as it is where neither end has anything to lose. -/
theorem trimList_eq_self_iff {cs : List Char} : trimList cs = cs ↔
    cs.dropWhile isBlankChar = cs ∧ cs.rdropWhile isBlankChar = cs := by
  constructor
  · intro h
    have hbegins : trimList cs <+: cs.dropWhile isBlankChar := List.rdropWhile_prefix _ _
    have hends : cs.dropWhile isBlankChar <:+ cs := List.dropWhile_suffix _
    have hlong := hbegins.length_le
    rw [h] at hlong
    have hhead := hends.eq_of_length (Nat.le_antisymm hends.length_le hlong)
    rw [trimList, hhead] at h
    exact ⟨hhead, h⟩
  · rintro ⟨hhead, hlast⟩
    rw [trimList, hhead]
    exact hlast

/-- A text begins or ends with a blank character. -/
def BlankEnded (s : String) : Prop :=
  ∃ c, isBlankChar c = true ∧ (s.toList.head? = some c ∨ s.toList.getLast? = some c)

/-- **Trimming leaves a text alone** just where it has no blank ends. -/
theorem trim_eq_self_iff {s : String} : trim s = s ↔ ¬ BlankEnded s := by
  have htrim : trim s = s ↔ trimList s.toList = s.toList := by
    rw [trim, ← String.toList_inj, String.toList_ofList]
  rw [htrim, trimList_eq_self_iff, List.dropWhile_eq_self_iff, List.rdropWhile_eq_self_iff,
    BlankEnded]
  cases hs : s.toList with
  | nil => simp
  | cons first rest =>
    have hlast : (first :: rest).getLast? = some ((first :: rest).getLast (by simp)) :=
      List.getLast?_eq_some_getLast _
    rw [hlast, List.head?_cons]
    constructor
    · rintro ⟨hfirst, hend⟩ ⟨c, hc, heq | heq⟩ <;> cases heq
      · exact hfirst (by simp) hc
      · exact hend (by simp) hc
    · intro h
      exact ⟨fun _ hc => h ⟨_, hc, .inl rfl⟩, fun _ hc => h ⟨_, hc, .inr rfl⟩⟩

/-- Trimming leaves a text without blank ends. -/
theorem trim_trim (s : String) : trim (trim s) = trim s := by
  simp only [trim, String.toList_ofList, trimList_trimList]

end Text

/-! ## What a section says -/

/-- What a section has to say before anything is resolved: the name of an implementation, and who
may call. -/
def ConnectorSections.judge (sections : ConnectorSections) (sectionName : String) :
    Except ConnectorError (String × AuthMode) := do
  let s ← sections.find sectionName
  let name ← s.implementationName sectionName
  let auth ← s.authMode sectionName
  return (name, auth)

namespace ConnectorSection

variable {s : ConnectorSection} {sectionName v : String}

/-- A value counts without its blank ends. -/
theorem required_of_some {key : SectionKey} (h : Text.isBlank v = false) :
    required sectionName key (some v) = .ok (Text.trim v) := by
  have hne : (Text.trim v).isEmpty = false := by
    rw [Bool.eq_false_iff, Ne, String.isEmpty_iff, Text.trim_eq_empty_iff, h]
    simp
  simp [required, hne]

end ConnectorSection

variable {kind : ConnectorKind} {sectionName : String} {sections : ConnectorSections}
  {c : Container Implementation} {d : Dispatcher Handler}

/-- A section that says what it has to. -/
theorem ConnectorSections.judge_eq_ok {s : ConnectorSection} {v : String} {auth : AuthMode}
    (hs : sections.get? sectionName = some s) (hv : s.implementation = some v)
    (hb : Text.isBlank v = false) (ha : s.authMode sectionName = .ok auth) :
    sections.judge sectionName = .ok (Text.trim v, auth) := by
  have hname : s.implementationName sectionName = .ok (Text.trim v) := by
    rw [ConnectorSection.implementationName, hv]
    exact ConnectorSection.required_of_some hb
  simp [judge, find, hs, hname, ha, bind, Except.bind, pure, Except.pure]

theorem ConnectorSections.of_judge_eq_ok {name : String} {auth : AuthMode}
    (h : sections.judge sectionName = .ok (name, auth)) :
    ∃ s, sections.get? sectionName = some s ∧ s.implementationName sectionName = .ok name ∧
      s.authMode sectionName = .ok auth := by
  unfold judge find at h
  cases hs : sections.get? sectionName with
  | none =>
    rw [hs] at h
    cases h
  | some s =>
    rw [hs] at h
    rcases hn : s.implementationName sectionName with e | n <;>
      rcases ha : s.authMode sectionName with e | a <;>
      simp [hn, ha, bind, Except.bind, pure, Except.pure] at h
    obtain ⟨rfl, rfl⟩ := h
    exact ⟨s, rfl, hn, ha⟩

namespace ConnectorKind

/-- A section that is wrong stops everything. -/
theorem bringUp_of_error {e : ConnectorError} (h : sections.judge sectionName = .error e) :
    kind.bringUp sectionName sections c d = (.error e, c) := by
  unfold ConnectorSections.judge at h
  unfold bringUp
  simp only [h]

/-- After the section comes the resolution of its name, and its error is passed on. -/
theorem bringUp_of_refused {name : String} {auth : AuthMode} {e : ContainerError}
    {c' : Container Implementation} (h : sections.judge sectionName = .ok (name, auth))
    (hres : c.resolve kind.contract name = (.error e, c')) :
    kind.bringUp sectionName sections c d = (.error (.resolution e), c') := by
  unfold ConnectorSections.judge at h
  unfold bringUp
  simp only [h, hres]

/-- The instance that the name resolves to is attached to the route. -/
theorem bringUp_of_resolved {name : String} {auth : AuthMode} {i : Instance Implementation}
    {c' : Container Implementation} (h : sections.judge sectionName = .ok (name, auth))
    (hres : c.resolve kind.contract name = (.ok i, c')) :
    kind.bringUp sectionName sections c d =
      ((d.attach kind.route (.served i) auth).map fun d => (i, d), c') := by
  unfold ConnectorSections.judge at h
  unfold bringUp
  simp only [h, hres]

end ConnectorKind

/-! ## Routes -/

namespace Dispatcher

variable {H : Type} {d d' : Dispatcher H} {name : String}

/-- **A route is attached where there is none**, and every other route is as before. -/
theorem attach_of_free (handler : H) (auth : AuthMode) (h : d.route? name = none) :
    ∃ d', d.attach name handler auth = .ok d' ∧
      ∀ other, d'.route? other = if other = name then some ⟨handler, auth⟩ else d.route? other := by
  refine ⟨⟨d.entries ++ [(name, ⟨handler, auth⟩)]⟩, by simp [attach, h], fun other => ?_⟩
  have hnone : d.entries.lookup name = none := h
  rw [route?, List.lookup_append]
  by_cases hother : other = name
  · rw [hother, hnone, if_pos rfl]
    simp
  · have hne : (other == name) = false := by simpa using hother
    rw [if_neg hother, route?]
    simp [List.lookup_cons, hne]

end Dispatcher

/-! ## What is served -/

/-- What bringing a connector up comes to where the section asks for a binding that there is. -/
structure ConnectorKind.Serves (kind : ConnectorKind) (sectionName : String)
    (sections : ConnectorSections) (auth : AuthMode) (c : Container Implementation)
    (d : Dispatcher Handler) (b : Binding Implementation) : Prop where
  /-- The binding's instance is what the connector serves, under the section's terms; a singleton
  answers that same instance to whoever resolves its name. -/
  serves : ∀ i, c.instance? b = some i → ∃ d',
    kind.bringUp sectionName sections c d = (.ok (i, d'), (c.resolve kind.contract b.name).2) ∧
    (∀ route, d'.route? route =
      if route = kind.route then some ⟨.served i, auth⟩ else d.route? route) ∧
    (c.resolve kind.contract b.name).1 = .ok i ∧
    (b.lifetime = .singleton →
      ((c.resolve kind.contract b.name).2.resolve kind.contract b.name).1 = .ok i)
  /-- Only the binding's own factory keeps the connector from coming up. -/
  fails : c.instance? b = none →
    (∃ reason, (c.attempt b).1 = .error (.failed reason) ∧
      (kind.bringUp sectionName sections c d).1 =
        .error (.resolution (.constructionFailed b.contract.name b.name reason))) ∨
    (b.busy = true ∨ (c.attempt b).1 = .error .endless) ∧
      (kind.bringUp sectionName sections c d).1 = .error (.resolution .endless)

theorem ConnectorKind.serves_of_find? {name : String} {auth : AuthMode} {b : Binding Implementation}
    (hj : sections.judge sectionName = .ok (name, auth)) (hr : d.route? kind.route = none)
    (hf : c.find? kind.contract name = some b) : kind.Serves sectionName sections auth c d b := by
  obtain ⟨-, rfl⟩ := Container.same_of_find?_eq_some hf
  constructor
  · intro i hi
    obtain ⟨hres, hagain⟩ := Container.resolve_of_instance? hf hi
    obtain ⟨d', hattach, hroutes⟩ := Dispatcher.attach_of_free (.served i) auth hr
    refine ⟨d', ?_, hroutes, hres, hagain⟩
    rcases hout : c.resolve kind.contract b.name with ⟨answer, c'⟩
    rw [hout] at hres
    subst hres
    rw [bringUp_of_resolved hj hout, hattach]
    rfl
  · intro hi
    have hfails := Container.resolve_of_instance?_eq_none hf hi
    rcases hout : c.resolve kind.contract b.name with ⟨answer, c'⟩
    rw [hout] at hfails
    rcases hfails with ⟨reason, ha, rfl⟩ | ⟨ha, rfl⟩ <;> rw [bringUp_of_refused hj hout]
    · exact .inl ⟨reason, ha, rfl⟩
    · exact .inr ⟨ha, rfl⟩

/-- **A connector serves the binding of the trimmed name, and no other.** Where the section is in
order and the route free, the binding whose name is exactly the section's text without its blank
ends is found and asked; if there is none, that name is reported. A binding whose name has blank
ends is never the one that is served, and a text without them is itself the name. -/
theorem bringUp_serves_trimmed {s : ConnectorSection} {v : String} {auth : AuthMode}
    (hs : sections.get? sectionName = some s) (hv : s.implementation = some v)
    (hb : Text.isBlank v = false) (ha : s.authMode sectionName = .ok auth)
    (hr : d.route? kind.route = none) :
    (∀ b, c.find? kind.contract (Text.trim v) = some b →
      b.name = Text.trim v ∧ ¬ Text.BlankEnded b.name ∧
      b.contract.same kind.contract = true ∧ kind.Serves sectionName sections auth c d b) ∧
    (c.find? kind.contract (Text.trim v) = none → kind.bringUp sectionName sections c d =
      (.error (.resolution (.unresolvedName kind.contract.name (Text.trim v))), c)) ∧
    (¬ Text.BlankEnded v → Text.trim v = v) := by
  have hj := ConnectorSections.judge_eq_ok hs hv hb ha
  refine ⟨?_, ?_, Text.trim_eq_self_iff.2⟩
  · intro b hf
    obtain ⟨hsame, hname⟩ := Container.same_of_find?_eq_some hf
    refine ⟨hname, ?_, hsame, ConnectorKind.serves_of_find? hj hr hf⟩
    rw [← Text.trim_eq_self_iff, hname, Text.trim_trim]
  · intro hf
    exact ConnectorKind.bringUp_of_refused hj (Container.resolve_of_find?_eq_none hf)

/-- Two asset services; the name of the second has blank ends. -/
def twoStores : Container Implementation :=
  (Container.empty.run [.registerNew assetServiceContract "store" (.assets .memory),
    .registerNew assetServiceContract " store " (.assets .null)]).2

/-- A section with the exact name of the second. -/
def blankEndedSection : ConnectorSection := .ofImplementation " store "

def blankEndedSections : ConnectorSections := ⟨[("AssetService", blankEndedSection)]⟩

theorem bringUp_serves_trimmed_store :
    Text.isBlank " store " = false ∧
    (Dispatcher.empty : Dispatcher Handler).route? assetConnector.route = none ∧
    ∃ b, twoStores.find? assetServiceContract (Text.trim " store ") = some b ∧
      b.name = "store" ∧
      assetConnector.Serves "AssetService" blankEndedSections .none twoStores .empty b := by
  have hblank : Text.isBlank " store " = false := by decide
  have hfree : (Dispatcher.empty : Dispatcher Handler).route? assetConnector.route = none := rfl
  have hsection : blankEndedSections.get? "AssetService" = some blankEndedSection := rfl
  obtain ⟨b, hb⟩ := Option.isSome_iff_exists.1
    (by decide : (twoStores.find? assetServiceContract (Text.trim " store ")).isSome = true)
  obtain ⟨hname, -, -, hserves⟩ :=
    (bringUp_serves_trimmed hsection rfl hblank rfl hfree).1 b hb
  exact ⟨hblank, hfree, b, hb, hname.trans (by decide), hserves⟩

/-- **A name with blank ends is bound, asked for exactly, and not served**: the second service is
there to be had, and the connector comes up with the first. -/
theorem blankEnded_not_served :
    (∃ b, twoStores.find? assetServiceContract " store " = some b ∧
      (twoStores.instance? b).map (·.serial) = some 1) ∧
    blankEndedSection.implementation = some " store " ∧
    blankEndedSection.authMode "AssetService" = .ok .none ∧
    (Dispatcher.empty : Dispatcher Handler).route? assetConnector.route = none ∧
    (assetConnector.bringUp "AssetService" blankEndedSections twoStores .empty).1.toOption.map
      (·.1.serial) = some 0 := by
  refine ⟨⟨_, rfl, ?_⟩, rfl, rfl, rfl, ?_⟩
  · decide
  · decide

end ModularHost
