import ModularHost.Json.Decoder
import ModularHost.Proofs.Json.Skipping
/-!
# Decoders pass over what they take

A decoder that takes a value from a text leaves the characters that are left when the value is
skipped (`Decoder.Skips`). So where a value ends does not depend on who reads it: not on what was
asked for, and not on whether it was asked for at all.
-/


namespace ModularHost
namespace Json

variable {α : Type}

namespace Decoder

/-- What the decoder takes from a text could have been skipped. -/
def Skips (d : Decoder α) : Prop :=
  ∀ depth s a rest, d.ofText depth s = .ok (a, rest) → SkipsTo s rest

variable {β : Type} {d : Decoder α}

theorem skips_map (h : d.Skips) (f : α → β) : (d.map f).Skips := by
  intro depth s b rest hread
  obtain ⟨⟨a, r⟩, ha, heq⟩ := map_eq_ok_iff.1 hread
  cases heq
  exact h _ _ _ _ ha

theorem skips_scalar (take : Json → Except Fault α) (wanted : String) :
    (scalar take wanted).Skips := by
  intro depth s a rest hread
  obtain ⟨⟨head, r⟩, hhead, h⟩ := bind_eq_ok_iff.1 hread
  rw [lift_eq_ok_iff] at hhead
  cases head with
  | scalar v =>
    obtain ⟨b, -, h⟩ := bind_eq_ok_iff.1 h
    cases h
    exact skipsTo_of_scalar hhead
  | openList => cases h
  | openObject => cases h

theorem skips_optional (h : d.Skips) : (optional d).Skips := by
  intro depth s a rest hread
  unfold optional at hread
  dsimp only at hread
  split at hread
  · rename_i t hs
    obtain ⟨r, hliteral, heq⟩ := bind_eq_ok_iff.1 hread
    rw [lift_eq_ok_iff] at hliteral
    cases heq
    have hnull : scanHead s = .ok (.scalar .null, rest) := by
      simp only [scanHead, hs, hliteral, Except.map]
    exact skipsTo_of_scalar hnull
  · obtain ⟨⟨b, r⟩, hb, heq⟩ := map_eq_ok_iff.1 hread
    cases heq
    exact (h _ _ _ _ hb).of_skipSpaces

theorem skips_list (h : d.Skips) : (list d).Skips := by
  intro depth s as rest hread
  obtain ⟨⟨head, r⟩, hhead, hread⟩ := bind_eq_ok_iff.1 hread
  rw [lift_eq_ok_iff] at hhead
  rcases scanHead_cases hhead with ⟨w, rfl⟩ | ⟨rfl, hs⟩ | ⟨rfl, hs⟩
  · cases hread
  · cases depth with
    | zero => cases hread
    | succ depth => exact skipsTo_list (h depth) hs hread
  · cases hread

theorem skips_dictionary (h : d.Skips) : (dictionary d).Skips := by
  intro depth s as rest hread
  obtain ⟨⟨head, r⟩, hhead, hread⟩ := bind_eq_ok_iff.1 hread
  rw [lift_eq_ok_iff] at hhead
  rcases scanHead_cases hhead with ⟨w, rfl⟩ | ⟨rfl, hs⟩ | ⟨rfl, hs⟩
  · cases hread
  · cases hread
  · cases depth with
    | zero => cases hread
    | succ depth =>
      obtain ⟨⟨ms, r'⟩, hms, heq⟩ := bind_eq_ok_iff.1 hread
      cases heq
      exact skipsTo_object (passesMember_readMember (h depth)) hs hms

/-! ## Records -/

variable {fields : List (RecordField α)}

theorem passesMember_readField (h : ∀ f ∈ fields, f.value.Skips) (depth : Nat) :
    PassesMember (readField fields depth) := by
  intro draft key s draft' rest hread
  unfold readField at hread
  split at hread
  · obtain ⟨t, hcolon, hread⟩ := bind_eq_ok_iff.1 hread
    obtain ⟨u, hskip, heq⟩ := bind_eq_ok_iff.1 hread
    cases heq
    exact ⟨t, lift_eq_ok_iff.1 hcolon, skipsTo_of_skip hskip⟩
  · rename_i f hfind
    split at hread
    · cases hread
    · obtain ⟨t, hcolon, hread⟩ := bind_eq_ok_iff.1 hread
      obtain ⟨⟨change, u⟩, hvalue, heq⟩ := bind_eq_ok_iff.1 hread
      cases heq
      exact ⟨t, lift_eq_ok_iff.1 hcolon,
        h f (List.mem_of_find?_eq_some hfind) _ _ _ _ hvalue⟩

/-- Fields for which there is no element change nothing. -/
theorem checkRest_eq_ok {label : String} {count : Nat} {fields : List (RecordField α)} :
    ∀ {index : Nat} {a b : α} {s rest : List Char},
      readFields.checkRest label count index fields a s = .ok (b, rest) → b = a ∧ rest = s := by
  induction fields with
  | nil =>
    intro index a b s rest h
    cases h
    exact ⟨rfl, rfl⟩
  | cons f fields ih =>
    intro index a b s rest h
    rw [readFields.checkRest] at h
    split at h
    · cases h
    · exact ih h

/-- Behind its first element a record ends as a list. -/
theorem endsList_of_readFields {label : String} {count depth : Nat} :
    ∀ {fields : List (RecordField α)}, (∀ f ∈ fields, f.value.Skips) →
      ∀ {index : Nat} {s rest : List Char} {a b : α},
        readFields label count depth (index + 1) fields s a = .ok (b, rest) → EndsList s rest
  | [], _, index, s, rest, a, b, hread => by
    rw [readFields] at hread
    obtain ⟨r, hclose, heq⟩ := bind_eq_ok_iff.1 hread
    cases heq
    exact .close (closeList_eq_ok (lift_eq_ok_iff.1 hclose))
  | f :: fields, h, index, s, rest, a, b, hread => by
    rw [readFields] at hread
    obtain ⟨next, hnext, hread⟩ := bind_eq_ok_iff.1 hread
    rw [lift_eq_ok_iff] at hnext
    cases next with
    | close r =>
      obtain ⟨-, rfl⟩ := checkRest_eq_ok hread
      exact .close (nextElement_eq_close hnext)
    | more r =>
      obtain ⟨⟨change, u⟩, hvalue, hrest⟩ := bind_eq_ok_iff.1 hread
      obtain ⟨-, ⟨⟨⟩, -⟩ | ⟨-, t, hs, ht⟩⟩ := nextElement_eq_more hnext
      have hfirst : SkipsTo (skipSpaces t) u := ht ▸ h f List.mem_cons_self _ _ _ _ hvalue
      exact .more hs hfirst.of_skipSpaces
        (endsList_of_readFields (fun g hg => h g (List.mem_cons_of_mem _ hg)) hrest)

theorem skipsTo_of_readFields {label : String} {count depth : Nat} (h : ∀ f ∈ fields, f.value.Skips)
    {s t rest : List Char} {a b : α} (hs : skipSpaces s = '[' :: t)
    (hread : readFields label count depth 0 fields t a = .ok (b, rest)) : SkipsTo s rest := by
  cases fields with
  | nil =>
    rw [readFields] at hread
    obtain ⟨r, hclose, heq⟩ := bind_eq_ok_iff.1 hread
    cases heq
    exact .emptyList hs (closeList_eq_ok (lift_eq_ok_iff.1 hclose))
  | cons f fields =>
    rw [readFields] at hread
    obtain ⟨next, hnext, hread⟩ := bind_eq_ok_iff.1 hread
    rw [lift_eq_ok_iff] at hnext
    cases next with
    | close r =>
      obtain ⟨-, rfl⟩ := checkRest_eq_ok hread
      exact .emptyList hs (nextElement_eq_close hnext)
    | more r =>
      obtain ⟨⟨change, u⟩, hvalue, hread⟩ := bind_eq_ok_iff.1 hread
      obtain ⟨hr, ⟨-, ht⟩ | ⟨⟨⟩, -⟩⟩ := nextElement_eq_more hnext
      exact .list hs ht hr (h f List.mem_cons_self _ _ _ _ hvalue)
        (endsList_of_readFields (fun g hg => h g (List.mem_cons_of_mem _ hg)) hread)

theorem skips_record {label : String} {blank : α} (h : ∀ f ∈ fields, f.value.Skips) :
    (record label blank fields).Skips := by
  intro depth s a rest hread
  obtain ⟨⟨head, r⟩, hhead, hread⟩ := bind_eq_ok_iff.1 hread
  rw [lift_eq_ok_iff] at hhead
  rcases scanHead_cases hhead with ⟨w, rfl⟩ | ⟨rfl, hs⟩ | ⟨rfl, hs⟩
  · cases hread
  · cases depth with
    | zero => cases hread
    | succ depth => exact skipsTo_of_readFields h hs hread
  · cases depth with
    | zero => cases hread
    | succ depth =>
      obtain ⟨⟨⟨b, seen⟩, r'⟩, hmembers, hread⟩ := bind_eq_ok_iff.1 hread
      obtain ⟨-, -, heq⟩ := bind_eq_ok_iff.1 hread
      cases heq
      exact skipsTo_object (passesMember_readField h depth) hs hmembers

theorem passesMember_readOrKeep (h : ∀ f ∈ fields, f.value.Skips) (depth : Nat) :
    PassesMember (readOrKeep fields depth) := by
  intro state key s state' rest hread
  unfold readOrKeep at hread
  split at hread
  · obtain ⟨⟨kept, r⟩, hkept, heq⟩ := bind_eq_ok_iff.1 hread
    cases heq
    exact passesMember_readMember (skipsTo_of_readTree depth) _ _ _ _ _ hkept
  · obtain ⟨⟨draft, r⟩, hdraft, heq⟩ := bind_eq_ok_iff.1 hread
    cases heq
    exact passesMember_readField h depth _ _ _ _ _ hdraft

theorem skips_openRecord {r : OpenRecord α} (h : ∀ f ∈ r.fields, f.value.Skips) :
    (openRecord r).Skips := by
  intro depth s a rest hread
  obtain ⟨⟨head, t⟩, hhead, hread⟩ := bind_eq_ok_iff.1 hread
  rw [lift_eq_ok_iff] at hhead
  rcases scanHead_cases hhead with ⟨w, rfl⟩ | ⟨rfl, hs⟩ | ⟨rfl, hs⟩
  · cases hread
  · cases hread
  · cases depth with
    | zero => cases hread
    | succ depth =>
      obtain ⟨⟨state, r'⟩, hmembers, hread⟩ := bind_eq_ok_iff.1 hread
      obtain ⟨b, -, heq⟩ := bind_eq_ok_iff.1 hread
      cases heq
      exact skipsTo_object (passesMember_readOrKeep h depth) hs hmembers

/-! ## Variants -/

theorem skips_variants (known : List (String × α)) : (variants known).Skips := by
  intro depth s a rest hread
  unfold variants at hread
  dsimp only at hread
  split at hread
  · cases hread
  · rename_i t hs
    obtain ⟨⟨name, r⟩, hname, hread⟩ := bind_eq_ok_iff.1 hread
    obtain ⟨b, -, heq⟩ := bind_eq_ok_iff.1 hread
    cases heq
    obtain ⟨hskip, hlen⟩ := skipString_of_scan (lift_eq_ok_iff.1 hname)
    exact .scalar hs hlen.le fun fuel => by simp only [skipValue, hs, hskip]
  · cases hread
  · rename_i t depth hs
    obtain ⟨next, hnext, hread⟩ := bind_eq_ok_iff.1 hread
    rw [lift_eq_ok_iff] at hnext
    cases next with
    | close r => cases hread
    | more r =>
      obtain ⟨⟨name, u⟩, hname, hread⟩ := bind_eq_ok_iff.1 hread
      obtain ⟨b, -, hread⟩ := bind_eq_ok_iff.1 hread
      obtain ⟨v, hcolon, hread⟩ := bind_eq_ok_iff.1 hread
      obtain ⟨⟨_, w⟩, hcontent, hread⟩ := bind_eq_ok_iff.1 hread
      rw [lift_eq_ok_iff] at hname hcolon
      have hvalue : SkipsTo v w := skips_scalar _ _ _ _ _ _ hcontent
      obtain ⟨-, ht⟩ | ⟨⟨⟩, -⟩ := nextMember_eq_more hnext
      obtain ⟨hskip, hlen⟩ := skipsMember_of_skips (skipSpaces_of_eq_cons ht) hname hcolon hvalue
      split at hread
      · cases hread
      · rename_i hclose
        cases hread
        exact .object hs ht ⟨_, _, rfl, by decide⟩ hskip hlen (.close hclose)
      · cases hread
  · cases hread

end Decoder
end Json
end ModularHost
