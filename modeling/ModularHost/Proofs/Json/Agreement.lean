import ModularHost.Json.Decoder
import ModularHost.Proofs.Json.Reading
import ModularHost.Proofs.Json.Skipping
/-!
# Decoding a text and decoding its tree

A decoder can take its value straight from a text, or from the tree that the text stands for. Where
there is such a tree the two come to the same (`Decoder.Agrees`): the decoder accepts the text if it
accepts the tree, with the same value, and leaves the same characters. What the decoder does not ask
for it skips, which every text that can be read allows.
-/


namespace ModularHost
namespace Json

variable {α β : Type}

namespace Decoder

/-- From a text that stands for a tree the decoder takes what it takes from the tree. -/
def Agrees (d : Decoder α) : Prop :=
  ∀ depth s v rest, readTree depth s = .ok (v, rest) →
    Mirrors (d.ofText depth s) (d.ofTree .json v) rest

variable {d : Decoder α}

theorem agrees_map (h : d.Agrees) (f : α → β) : (d.map f).Agrees :=
  fun depth s v rest hread => (h depth s v rest hread).map f

/-! ## Scalars -/

/-- A decoder of scalars refuses whatever begins with a bracket. -/
theorem agrees_scalar {take : Json → Except Fault α} (wanted : String)
    (h : ∀ v a, take v = .ok a → v.IsScalar) : (scalar take wanted).Agrees := by
  intro depth s v rest hread
  have hparts : ∀ w, ¬ w.IsScalar → ∀ a, take w ≠ .ok a := fun w hw a htake => hw (h w a htake)
  rcases readTree_cases hread with ⟨hhead, -⟩ | ⟨_, t, vs, -, hhead, rfl, -⟩ |
    ⟨_, t, ms, -, hhead, rfl, -⟩ <;> simp only [scalar, hhead, lift_ok, ok_bind]
  · exact .judge (take v) rest
  · exact .of_not_ok (fun _ h => by cases h) (hparts _ id)
  · exact .of_not_ok (fun _ h => by cases h) (hparts _ id)

theorem agrees_text (wanted : String) : (text wanted).Agrees := by
  refine agrees_scalar wanted fun v a h => ?_
  cases v with
  | str => trivial
  | null | bool | int | real | arr | obj | date => cases h

theorem agrees_bool : bool.Agrees := by
  refine agrees_scalar _ fun v a h => ?_
  cases v with
  | bool => trivial
  | null | str | int | real | arr | obj | date => cases h

theorem agrees_integer (least greatest : Int) (wanted : String) :
    (integer least greatest wanted).Agrees := by
  refine agrees_scalar wanted fun v a h => ?_
  cases v with
  | int => trivial
  | null | bool | str | real | arr | obj | date => cases h

/-! ## Containers -/

theorem agrees_any : any.Agrees := by
  intro depth s v rest hread
  simp only [any, hread, Except.map]
  exact .pure v.normal rest

theorem agrees_optional (h : d.Agrees) : (optional d).Agrees := by
  intro depth s v rest hread
  have hnull := eq_null_iff hread
  unfold optional
  dsimp only
  split
  · rename_i t hs
    obtain rfl := hnull.2 ⟨t, hs⟩
    have hhead : scanHead s = .ok (.scalar .null, rest) := by
      rcases readTree_cases hread with ⟨hhead, -⟩ | ⟨_, _, _, -, -, hv, -⟩ |
        ⟨_, _, _, -, -, hv, -⟩
      · exact hhead
      · cases hv
      · cases hv
    have hliteral : scanLiteral ['u', 'l', 'l'] t = .ok rest := by
      simp only [scanHead, hs] at hhead
      obtain ⟨r, hscan, heq⟩ := map_eq_ok_iff.1 hhead
      cases heq
      exact hscan
    rw [hliteral, lift_ok, ok_bind]
    exact .pure none rest
  · rename_i hs
    have hne : v ≠ .null := fun heq => by
      obtain ⟨t, ht⟩ := hnull.1 heq
      exact hs t ht
    have hsome := agrees_map h some depth (skipSpaces s) v rest
      ((readTree_skipSpaces depth s).trans hread)
    cases v with
    | null => exact absurd rfl hne
    | bool | int | real | str | arr | obj | date => exact hsome

theorem agrees_list (h : d.Agrees) : (list d).Agrees := by
  intro depth s v rest hread
  rcases readTree_cases hread with ⟨hhead, hv⟩ | ⟨inner, t, vs, rfl, hhead, rfl, hvs⟩ |
    ⟨_, t, ms, rfl, hhead, rfl, -⟩ <;> simp only [list, hhead, lift_ok, ok_bind]
  · cases v with
    | arr | obj | date => cases hv
    | null | bool | int | real | str => exact .error _ _ rest
  · exact mirrors_readElements (h inner) hvs
  · exact .error _ _ rest

/-- A member decoded and put before those already there. -/
def putDecoded (f : β → Except Fault α) (before : List (String × α)) (m : String × β) :
    Except Fault (List (String × α)) := do
  let a ← f m.2
  return (m.1, a) :: before

theorem foldlM_putDecoded (f : β → Except Fault α) (ms : List (String × β)) :
    ∀ before : List (String × α), ms.foldlM (putDecoded f) before =
      (ms.mapM fun m => (f m.2).map (m.1, ·)) >>= fun ds => .ok (ds.reverse ++ before) := by
  induction ms with
  | nil => exact fun before => rfl
  | cons m rest ih =>
    intro before
    rw [List.foldlM_cons, List.mapM_cons, putDecoded]
    cases f m.2 with
    | error e => rfl
    | ok a =>
      refine (ih ((m.1, a) :: before)).trans ?_
      cases rest.mapM fun m => (f m.2).map (m.1, ·) <;>
        simp [Except.map, bind, Except.bind, pure, Except.pure]

theorem agrees_dictionary (h : d.Agrees) : (dictionary d).Agrees := by
  intro depth s v rest hread
  rcases readTree_cases hread with ⟨hhead, hv⟩ | ⟨_, t, vs, rfl, hhead, rfl, -⟩ |
    ⟨inner, t, ms, rfl, hhead, rfl, hms⟩ <;> simp only [dictionary, hhead, lift_ok, ok_bind]
  · cases v with
    | arr | obj | date => cases hv
    | null | bool | int | real | str => exact .error _ _ rest
  · exact .error _ _ rest
  · have hstep : ∀ key s t w r, scanColon s = .ok t → readTree inner t = .ok (w, r) →
        ∀ before, Mirrors (readMember (d.ofText inner) before key s)
          (putDecoded (d.ofTree .json) before (key, w)) r := by
      intro key s t w r hcolon hw before
      rw [readMember, hcolon, lift_ok, ok_bind]
      exact (h inner t w r hw).bind fun a => .pure ((key, a) :: before) r
    obtain ⟨ms', heq, hall⟩ := mirrors_readMembers hstep hms
    rw [List.append_nil] at heq
    rw [heq, List.reverse_reverse]
    -- the text's reader has put each member before the others, and turns them round at the end
    have htree : (dictionary d).ofTree .json (.obj ms') =
        ms'.foldlM (putDecoded (d.ofTree .json)) [] >>= fun ds => .ok (sortMembers ds.reverse) := by
      rw [foldlM_putDecoded]
      simp only [dictionary, members?]
      cases ms'.mapM fun m => (d.ofTree .json m.2).map (m.1, ·) <;>
        simp [bind, Except.bind, pure, Except.pure]
    change Mirrors _ ((dictionary d).ofTree .json (.obj ms')) rest
    rw [htree]
    exact (hall []).bind fun ds => .pure (sortMembers ds.reverse) rest

/-! ## Records -/

variable {fields : List (RecordField α)}

/-- A member that is no field is passed over by both; a field's value is taken by both alike. -/
theorem mirrors_readField (h : ∀ f ∈ fields, f.value.Agrees) {inner : Nat} {s t r : List Char}
    {w : Json} (hcolon : scanColon s = .ok t) (hw : readTree inner t = .ok (w, r)) (key : String)
    (draft : Draft α) :
    Mirrors (readField fields inner draft key s) (takeMember fields .json draft (key, w)) r := by
  unfold readField takeMember
  cases hfind : fields.find? (·.name == key) with
  | none =>
    have hskip := (skipsTo_of_readTree inner t w r hw).skip
    simp only [hcolon, lift_ok, ok_bind, hskip]
    exact .pure draft r
  | some f =>
    dsimp only
    by_cases hseen : draft.2.contains f.name = true
    · rw [if_pos hseen, if_pos hseen]
      exact .error _ _ r
    · have hvalue := h f (List.mem_of_find?_eq_some hfind) inner t w r hw
      rw [if_neg hseen, if_neg hseen, hcolon, lift_ok, ok_bind]
      exact hvalue.bind fun change => .pure (change draft.1, f.name :: draft.2) r

theorem mirrors_checkRest {label : String} {count : Nat} {fields : List (RecordField α)} :
    ∀ {index : Nat} {a : α} {s : List Char},
      Mirrors (readFields.checkRest label count index fields a s)
        (recordOfElements label count .json index fields [] a) s := by
  induction fields with
  | nil => exact fun {index a s} => .pure a s
  | cons f fields ih =>
    intro index a s
    rw [readFields.checkRest, recordOfElements]
    by_cases hrequired : f.required = true
    · rw [if_pos hrequired, if_pos hrequired]
      exact .error _ _ s
    · rw [if_neg hrequired, if_neg hrequired]
      exact ih

/-- The elements of a list are taken by the fields in their order. -/
theorem mirrors_readFields (label : String) (count : Nat) {inner : Nat} :
    ∀ {fields : List (RecordField α)}, (∀ f ∈ fields, f.value.Agrees) →
      ∀ {index fuel : Nat} {s rest : List Char} {vs : List Json},
        readElements (readTree inner) fuel (index == 0) s = .ok (vs, rest) → ∀ a,
          Mirrors (readFields label count inner index fields s a)
            (recordOfElements label count .json index fields vs a) rest
  | _, _, _, 0, _, _, _, hread, _ => by cases hread
  | fields, h, index, fuel + 1, s, rest, vs, hread, a => by
    obtain ⟨next, hnext, hread⟩ := bind_eq_ok_iff.1 hread
    rw [lift_eq_ok_iff] at hnext
    cases next with
    | close r =>
      cases hread
      cases fields with
      | nil =>
        have hclose : closeList s = .ok rest := by
          simp only [closeList, nextElement_eq_close hnext]
        rw [readFields, hclose, lift_ok, ok_bind]
        exact .pure a rest
      | cons f fields =>
        rw [readFields, hnext, lift_ok, ok_bind]
        exact mirrors_checkRest
    | more r =>
      obtain ⟨⟨w, r₁⟩, hw, hread⟩ := bind_eq_ok_iff.1 hread
      obtain ⟨⟨ws, r₂⟩, hws, hread⟩ := bind_eq_ok_iff.1 hread
      cases hread
      cases fields with
      | nil =>
        -- one element too many: the tree's list is too long, the text's does not close
        refine .of_not_ok (fun b hb => ?_) fun b hb => by cases hb
        obtain ⟨x, hx, -⟩ := bind_eq_ok_iff.1 hb
        have hclose := closeList_eq_ok (lift_eq_ok_iff.1 hx)
        obtain ⟨⟨c, t, rfl, hc⟩, ⟨-, hs⟩ | ⟨-, t', hs, -⟩⟩ := nextElement_eq_more hnext
        · rw [hclose] at hs
          cases hs
          exact hc rfl
        · rw [hclose] at hs
          cases hs
      | cons f fields =>
        have hvalue := h f List.mem_cons_self inner r w r₁ hw
        have hws' : readElements (readTree inner) fuel (index + 1 == 0) r₁ = .ok (ws, rest) := hws
        have hrest := mirrors_readFields label count
          (fun g hg => h g (List.mem_cons_of_mem _ hg)) hws'
        rw [readFields, hnext, lift_ok, ok_bind, recordOfElements]
        exact hvalue.bind fun change => hrest (change a)

theorem agrees_record {label : String} {blank : α} (h : ∀ f ∈ fields, f.value.Agrees) :
    (record label blank fields).Agrees := by
  intro depth s v rest hread
  rcases readTree_cases hread with ⟨hhead, hv⟩ | ⟨inner, t, vs, rfl, hhead, rfl, hvs⟩ |
    ⟨inner, t, ms, rfl, hhead, rfl, hms⟩ <;> simp only [record, hhead, lift_ok, ok_bind]
  · cases v with
    | arr | obj | date => cases hv
    | null | bool | int | real | str => exact .error _ _ rest
  · exact mirrors_readFields _ _ h hvs blank
  · have hstep : ∀ key s t w r, scanColon s = .ok t → readTree inner t = .ok (w, r) →
        ∀ draft, Mirrors (readField fields inner draft key s)
          (takeMember fields .json draft (key, w)) r :=
      fun key s t w r hcolon hw draft => mirrors_readField h hcolon hw key draft
    obtain ⟨ms', heq, hall⟩ := mirrors_readMembers hstep hms
    rw [List.append_nil] at heq
    rw [heq, List.reverse_reverse, recordOfMembers]
    refine (hall (blank, [])).bind fun ⟨a, seen⟩ => ?_
    dsimp only
    cases checkPresent fields seen with
    | error e => exact .error _ _ rest
    | ok => exact .pure a rest

/-! ## Records with room for more -/

/-- What is no field is put aside by both, and read as a tree by both. -/
theorem mirrors_readOrKeep (h : ∀ f ∈ fields, f.value.Agrees) {inner : Nat} {s t r : List Char}
    {w : Json} (hcolon : scanColon s = .ok t) (hw : readTree inner t = .ok (w, r)) (key : String)
    (state : Draft α × List (String × Json)) :
    Mirrors (readOrKeep fields inner state key s) (takeOrKeep fields .json state (key, w)) r := by
  unfold readOrKeep takeOrKeep
  cases fields.find? (·.name == key) with
  | none =>
    have hmember : readMember (readTree inner) state.2 key s = .ok ((key, w) :: state.2, r) := by
      rw [readMember, hcolon, lift_ok, ok_bind, hw]
      rfl
    simp only [hmember, ok_bind]
    exact .pure (state.1, (key, w) :: state.2) r
  | some f =>
    have hfield := mirrors_readField h hcolon hw key state.1
    exact hfield.bind fun draft => .pure (draft, state.2) r

theorem agrees_openRecord {r : OpenRecord α} (h : ∀ f ∈ r.fields, f.value.Agrees) :
    (openRecord r).Agrees := by
  intro depth s v rest hread
  rcases readTree_cases hread with ⟨hhead, hv⟩ | ⟨_, t, vs, rfl, hhead, rfl, -⟩ |
    ⟨inner, t, ms, rfl, hhead, rfl, hms⟩ <;> simp only [openRecord, hhead, lift_ok, ok_bind]
  · cases v with
    | arr | obj | date => cases hv
    | null | bool | int | real | str => exact .error _ _ rest
  · exact .error _ _ rest
  · have hstep : ∀ key s t w x, scanColon s = .ok t → readTree inner t = .ok (w, x) →
        ∀ state, Mirrors (readOrKeep r.fields inner state key s)
          (takeOrKeep r.fields .json state (key, w)) x :=
      fun key s t w x hcolon hw state => mirrors_readOrKeep h hcolon hw key state
    obtain ⟨ms', heq, hall⟩ := mirrors_readMembers hstep hms
    rw [List.append_nil] at heq
    rw [heq, List.reverse_reverse]
    exact (hall ((r.blank, []), [])).bind fun state => .judge (r.complete .json state) rest

/-! ## Variants -/

theorem agrees_variants (known : List (String × α)) : (variants known).Agrees := by
  have hnothing : (variants.nothing).Agrees := agrees_scalar _ fun v a h => by
    cases v with
    | null => trivial
    | bool | int | real | str | arr | obj | date => cases h
  intro depth s v rest hread
  rcases readTree_cases hread with ⟨hhead, hv⟩ | ⟨_, t, vs, rfl, hhead, rfl, -⟩ |
    ⟨inner, t, ms, rfl, hhead, rfl, hms⟩
  · by_cases hquote : ∃ t, skipSpaces s = '"' :: t
    · obtain ⟨t, hs⟩ := hquote
      obtain ⟨name, rfl, hname⟩ := scanHead_of_quote hs hhead
      simp only [variants, hs, hname, lift_ok, ok_bind]
      exact .judge (variant known name) rest
    · have hstr : ∀ name, v ≠ .str name := fun name heq =>
        hquote ((scalar_of_scanHead hhead).2.2.1 ⟨name, heq⟩)
      have hbrace : ∀ t, skipSpaces s ≠ '\x7b' :: t := by
        intro t hs
        simp [scanHead, hs] at hhead
      refine .of_not_ok (fun b hb => ?_) fun b hb => ?_
      · unfold variants at hb
        dsimp only at hb
        split at hb
        · cases hb
        · exact hquote ⟨_, ‹_›⟩
        · exact hbrace _ ‹_›
        · exact hbrace _ ‹_›
        · cases hb
      · cases v with
        | str name => exact hstr name rfl
        | arr | obj | date => cases hv
        | null | bool | int | real => cases hb
  · rcases scanHead_cases hhead with ⟨_, hw⟩ | ⟨-, hs⟩ | ⟨hw, -⟩
    · cases hw
    · simp only [variants, hs]
      exact .error _ _ rest
    · cases hw
  · rcases scanHead_cases hhead with ⟨_, hw⟩ | ⟨hw, -⟩ | ⟨-, hs⟩
    · cases hw
    · cases hw
    obtain ⟨next, hnext, hms⟩ := bind_eq_ok_iff.1 hms
    rw [lift_eq_ok_iff] at hnext
    cases next with
    | close r =>
      cases hms
      simp only [variants, hs, hnext, lift_ok, ok_bind]
      exact .error _ _ rest
    | more r =>
      obtain ⟨⟨key, r₁⟩, hkey, hms⟩ := bind_eq_ok_iff.1 hms
      obtain ⟨⟨before, r₂⟩, hmember, hms⟩ := bind_eq_ok_iff.1 hms
      obtain ⟨x, hcolon, hmember⟩ := bind_eq_ok_iff.1 hmember
      obtain ⟨⟨w, r₃⟩, hw, hmember⟩ := bind_eq_ok_iff.1 hmember
      cases hmember
      have hcontent := hnothing inner x w r₂ hw
      simp only [variants, hs, hnext, lift_ok, ok_bind, hkey, hcolon]
      rcases readMembers_rest hms with ⟨rfl, hclose⟩ | ⟨⟨t', hcomma⟩, m₁, m₂, more, hmore⟩
      · simp only [List.reverse_singleton]
        cases variant known key with
        | error e => exact .error _ _ rest
        | ok b =>
          rw [ok_bind, ok_bind]
          cases w with
          | null =>
            rw [(hcontent () r₂).2 ⟨rfl, rfl⟩, ok_bind]
            dsimp only
            rw [hclose]
            exact .pure b rest
          | bool | int | real | str | arr | obj | date =>
            refine .of_not_ok (fun c hc => ?_) fun c hc => by cases hc
            obtain ⟨⟨⟨⟩, r₂'⟩, hnull, -⟩ := bind_eq_ok_iff.1 hc
            cases ((hcontent () r₂').1 hnull).1
      · rw [hmore]
        refine .of_not_ok (fun c hc => ?_) fun c hc => by cases hc
        obtain ⟨b, -, hc⟩ := bind_eq_ok_iff.1 hc
        obtain ⟨⟨⟨⟩, r₂'⟩, hnull, hc⟩ := bind_eq_ok_iff.1 hc
        obtain ⟨-, rfl⟩ := (hcontent () r₂').1 hnull
        rw [hcomma] at hc
        cases hc

/-! ## Whole texts -/

/-- **A text that stands for a tree is decoded as the tree.** -/
theorem decodeText_of_readTree (h : d.Agrees) {s : String} {v : Json} {rest : List Char}
    (hread : readTree depthLimit s.toList = .ok (v, rest)) (hend : skipSpaces rest = []) {a : α} :
    d.decodeText s = .ok a ↔ d.decode v = .ok a := by
  have hd := h depthLimit s.toList v rest hread
  have hdone : endDocument rest = .ok () := by rw [endDocument, hend]
  constructor
  · intro htext
    obtain ⟨⟨b, r⟩, hb, htext⟩ := bind_eq_ok_iff.1 htext
    obtain ⟨htree, rfl⟩ := (hd b r).1 hb
    obtain ⟨-, -, htext⟩ := bind_eq_ok_iff.1 htext
    cases htext
    exact htree
  · intro htree
    exact bind_eq_ok_iff.2 ⟨_, (hd a rest).2 ⟨htree, rfl⟩, bind_eq_ok_iff.2 ⟨(), hdone, rfl⟩⟩

end Decoder
end Json
end ModularHost
