import Mathlib.Data.List.Basic
import ModularHost.Proofs.Json.Members
import ModularHost.Proofs.Toml.Pieces
import ModularHost.Toml.Reader
/-!
# Documents that are printed and read

A document that is printed can be read, and says what was printed: its lines do to a draft what the
sections do that they were printed from (`parse_printDocument`). Of values, those are considered
that settings have (`Legible`). Each ends with its line, so each line is read for itself, and what a
section does is put together from what its lines do.
-/


namespace ModularHost
namespace Toml

variable {rest : List Char}

/-! ## Values -/

/-- **The values that settings have**: flags, texts, numbers of 63 bits and lists of texts. -/
inductive Legible : Json → Prop
  | bool (b : Bool) : Legible (.bool b)
  | text (s : String) : Legible (.str s)
  | number {n : Nat} : n ≤ 9223372036854775807 → Legible (.int n)
  | texts (ss : List String) : Legible (.arr (ss.map .str))

theorem printItems_texts (ss : List String) : printItems (ss.map .str) = ss.map printString := by
  induction ss with
  | nil => rfl
  | cons s ss ih => simp [printItems, printValue?, ih]

theorem readValue_of_isDigit {c : Char} (hc : c.isDigit = true) (depth : Nat) (s : List Char) :
    readValue depth (c :: s) = scanNumber (c :: s) := by
  unfold readValue
  split <;> simp_all

theorem readValue_printString (depth : Nat) (s : String) (hrest : rest.head? ≠ some '"') :
    readValue depth (printString s ++ rest) = some (.str s, rest) := by
  have hscan := scanString_printString s hrest
  rw [printString_append] at hscan ⊢
  rw [readValue, hscan]
  rfl

section Elements

variable {depth fuel : Nat} {t : List Char} {vs : List Json}

theorem readElements_last (s : String) :
    readElements (readValue depth) (fuel + 1) (printString s ++ ']' :: rest) =
      some ([.str s], rest) := by
  have hvalue : readValue depth (printString s ++ ']' :: rest) = some (.str s, ']' :: rest) :=
    readValue_printString depth s (by simp)
  rw [printString_append] at hvalue ⊢
  simp [readElements, skipFiller, isBlank, hvalue]

/-- A comma is followed by the other elements, behind a blank. -/
theorem readElements_more (s : String)
    (h : readElements (readValue depth) fuel t = some (vs, rest)) :
    readElements (readValue depth) (fuel + 1) (printString s ++ ',' :: ' ' :: t) =
      some (.str s :: vs, rest) := by
  have hvalue : readValue depth (printString s ++ ',' :: ' ' :: t) =
      some (.str s, ',' :: ' ' :: t) := readValue_printString depth s (by simp)
  have hblank : readElements (readValue depth) fuel (' ' :: t) = some (vs, rest) := by
    cases fuel with
    | zero => cases h
    | succ fuel => exact h
  rw [printString_append] at hvalue ⊢
  simp [readElements, skipFiller, isBlank, hvalue, hblank]

end Elements

/-- Texts are read one by one, up to the closing bracket. -/
theorem readElements_texts (depth : Nat) (ss : List String) (rest : List Char) :
    ∀ fuel, ss.length < fuel →
      readElements (readValue depth) fuel
        ([',', ' '].intercalate (ss.map printString) ++ ']' :: rest) =
          some (ss.map .str, rest) := by
  induction ss with
  | nil =>
    intro fuel hfuel
    simp only [List.length_nil] at hfuel
    obtain ⟨fuel, rfl⟩ : ∃ n, fuel = n + 1 := ⟨fuel - 1, by omega⟩
    rfl
  | cons s ss ih =>
    intro fuel hfuel
    simp only [List.length_cons] at hfuel
    obtain ⟨fuel, rfl⟩ : ∃ n, fuel = n + 1 := ⟨fuel - 1, by omega⟩
    cases ss with
    | nil =>
      rw [List.map_singleton, List.intercalate_singleton]
      exact readElements_last s
    | cons t ss =>
      have hlater := readElements_more s (ih fuel (by omega))
      rw [List.map_cons, List.map_cons, List.intercalate_cons_cons, List.append_assoc,
        List.append_assoc]
      exact hlater

theorem length_le_intercalate (ss : List String) :
    ss.length ≤ ([',', ' '].intercalate (ss.map printString)).length := by
  induction ss with
  | nil => exact Nat.le_refl _
  | cons s ss ih =>
    have hpos : 1 ≤ (printString s).length := by simp [printString]
    cases ss with
    | nil => simpa using hpos
    | cons t ss =>
      rw [List.map_cons, List.map_cons, List.intercalate_cons_cons, ← List.map_cons]
      simp only [List.length_append, List.length_cons] at ih ⊢
      omega

/-- **A value is read back** up to the end of its line. It does not begin with a blank. -/
theorem readValue_print {v : Json} (h : Legible v) : ∃ c s, printValue? v = some (c :: s) ∧
    isBlank c = false ∧
    ∀ rest, readValue depthLimit (c :: s ++ '\n' :: rest) = some (v, '\n' :: rest) := by
  cases h with
  | bool b => cases b <;> exact ⟨_, _, rfl, rfl, fun _ => rfl⟩
  | text s => exact ⟨'"', _, rfl, rfl, fun _ => readValue_printString _ s (by simp)⟩
  | @number n hn =>
    have hprint : printValue? (.int n) = some (Nat.toDigits 10 n) := by
      rw [printValue?, Json.printInt, if_neg (by omega)]
      rfl
    obtain ⟨d, ds, hds, hd, -⟩ := exists_toDigits n
    refine ⟨d, ds, hds ▸ hprint, isBlank_eq_false hd rfl rfl, fun rest => ?_⟩
    have hscan := scanNumber_toDigits hn rest
    rw [hds] at hscan
    exact (readValue_of_isDigit hd _ _).trans hscan
  | texts ss =>
    refine ⟨'[', [',', ' '].intercalate (ss.map printString) ++ [']'], ?_, rfl, fun rest => ?_⟩
    · rw [printValue?, printItems_texts]
      rfl
    have hlength := length_le_intercalate ss
    have helements := readElements_texts 78 ss ('\n' :: rest)
      (([',', ' '].intercalate (ss.map printString) ++ ']' :: '\n' :: rest).length + 1)
      (by rw [List.length_append]; omega)
    rw [List.cons_append, List.append_assoc, List.singleton_append]
    change (readElements (readValue 78) _ _).map _ = _
    rw [helements]
    rfl

/-! ## Lines -/

theorem skipBlanks_printKey (key : String) : skipBlanks (printKey key ++ rest) =
    printKey key ++ rest := by
  obtain ⟨c, s, hkey, hc⟩ := printKey_head key
  have hblank : isBlank c = false := by
    rcases hc with rfl | hc
    · rfl
    · exact isBlank_eq_false hc rfl rfl
  rw [hkey, List.cons_append, skipBlanks, List.dropWhile_cons_of_neg (by simp [hblank])]

/-- A key is the whole path unless a dot follows. -/
theorem scanPath_single {room : Nat} (key : String) {t : List Char}
    (hrest : ∀ c ∈ rest.head?, isBare c = false) (hend : skipBlanks rest = t)
    (hdot : t.head? ≠ some '.') :
    scanPath (room + 1) (printKey key ++ rest) = some ([key], t) := by
  rw [scanPath, skipBlanks_printKey, scanSimpleKey_printKey key hrest]
  dsimp only [Option.bind_eq_bind, Option.bind_some]
  rw [hend]
  split
  · exact absurd rfl hdot
  · rfl

theorem scanPath_more {room : Nat} (key : String) {keys : List String} {t : List Char}
    (h : scanPath room rest = some (keys, t)) :
    scanPath (room + 1) (printKey key ++ '.' :: rest) = some (key :: keys, t) := by
  rw [scanPath, skipBlanks_printKey, scanSimpleKey_printKey key (by simp; decide)]
  dsimp only [Option.bind_eq_bind, Option.bind_some]
  have hdot : skipBlanks ('.' :: rest) = '.' :: rest := rfl
  rw [hdot]
  simp [h]

/-- **The path of a header is read back** up to the closing bracket. -/
theorem scanPath_header {room : Nat} {header : List String} (hne : header ≠ [])
    (hroom : header.length ≤ room) (rest : List Char) :
    scanPath room (['.'].intercalate (header.map printKey) ++ ']' :: rest) =
      some (header, ']' :: rest) := by
  induction header generalizing room with
  | nil => exact absurd rfl hne
  | cons key keys ih =>
    simp only [List.length_cons] at hroom
    obtain ⟨room, rfl⟩ : ∃ n, room = n + 1 := ⟨room - 1, by omega⟩
    cases keys with
    | nil =>
      rw [List.map_singleton, List.intercalate_singleton]
      exact scanPath_single key (by simp; decide) rfl (by simp)
    | cons other keys =>
      have hlater := scanPath_more key (ih (by simp) (Nat.le_of_succ_le_succ hroom))
      rw [List.map_cons, List.map_cons, List.intercalate_cons_cons, List.append_assoc,
        List.append_assoc]
      exact hlater

/-- What begins with a key is a line with a value. -/
theorem readLine_printKey (d : Draft) (key : String) (rest : List Char) :
    readLine d (printKey key ++ rest) = (do
      let ((path, v), s) ← readPair (readValue depthLimit) (printKey key ++ rest)
      return (← d.add path v, ← scanLineEnd s)) := by
  obtain ⟨c, s, hkey, hc⟩ := printKey_head key
  have hne : ∀ (d : Char) (t : List Char), isBare d = false → d ≠ '"' →
      c :: (s ++ rest) ≠ d :: t := by
    intro d t hbare hquote heq
    obtain rfl := (List.cons.inj heq).1
    rcases hc with hc | hc
    · exact hquote hc
    · rw [hbare] at hc
      cases hc
  rw [readLine, skipBlanks_printKey, hkey, List.cons_append]
  split
  · exact absurd ‹_› (List.cons_ne_nil _ _)
  · exact absurd ‹_› (hne '#' _ (by decide) (by decide))
  · exact absurd ‹_› (hne '\n' _ (by decide) (by decide))
  · exact absurd ‹_› (hne '\r' _ (by decide) (by decide))
  · exact absurd ‹_› (hne '[' _ (by decide) (by decide))
  · rfl

/-- **A line with a value is read** as the value under its key. -/
theorem readLine_member {d d' : Draft} {key : String} {v : Json} (hv : Legible v)
    (hd : d.add [key] v = some d') : ∃ line, printMembers [(key, v)] = [line] ∧
      ∀ rest, readLine d (line ++ '\n' :: rest) = some (d', rest) := by
  obtain ⟨c, s, hshown, hblank, hread⟩ := readValue_print hv
  refine ⟨printKey key ++ [' ', '=', ' '] ++ (c :: s), by simp [printMembers, hshown],
    fun rest => ?_⟩
  have hpath : scanPath depthLimit (printKey key ++ ' ' :: '=' :: ' ' :: (c :: s ++ '\n' :: rest)) =
      some ([key], '=' :: ' ' :: (c :: s ++ '\n' :: rest)) :=
    scanPath_single key (by simp; decide) rfl (by simp)
  have hmark : scanMark '=' ('=' :: ' ' :: (c :: s ++ '\n' :: rest)) =
      some (' ' :: (c :: s ++ '\n' :: rest)) := rfl
  have hskip : skipBlanks (' ' :: (c :: s ++ '\n' :: rest)) = c :: s ++ '\n' :: rest := by
    rw [skipBlanks, List.dropWhile_cons_of_pos rfl, List.cons_append,
      List.dropWhile_cons_of_neg (by simp [hblank])]
  have hend : scanLineEnd ('\n' :: rest) = some rest := rfl
  have hline : printKey key ++ [' ', '=', ' '] ++ (c :: s) ++ '\n' :: rest =
      printKey key ++ ' ' :: '=' :: ' ' :: (c :: s ++ '\n' :: rest) := by simp
  rw [hline, readLine_printKey, readPair, hpath]
  dsimp only [Option.bind_eq_bind, Option.bind_some, Option.pure_def]
  rw [hmark]
  dsimp only [Option.bind_some]
  rw [hskip, hread]
  dsimp only [Option.bind_some]
  rw [hd, hend]
  rfl

/-- The first key of a header does not make its bracket a double one. -/
theorem path_head_ne {header : List String} (hne : header ≠ []) :
    ∃ c s, ['.'].intercalate (header.map printKey) = c :: s ∧ c ≠ '[' := by
  cases header with
  | nil => exact absurd rfl hne
  | cons key keys =>
    obtain ⟨c, s, hkey, hc⟩ := printKey_head key
    have hbracket : c ≠ '[' := by
      rintro rfl
      rcases hc with hc | hc <;> exact absurd hc (by decide)
    cases keys with
    | nil => exact ⟨c, s, by rw [List.map_singleton, List.intercalate_singleton, hkey], hbracket⟩
    | cons other keys =>
      exact ⟨c, _, by rw [List.map_cons, List.map_cons, List.intercalate_cons_cons, hkey]; rfl,
        hbracket⟩

/-- **A header is read** as the table of its path. -/
theorem readLine_header {d d' : Draft} {header : List String} (hne : header ≠ [])
    (hroom : header.length ≤ depthLimit) (hd : d.openTable header = some d') (rest : List Char) :
    readLine d ('[' :: (['.'].intercalate (header.map printKey) ++ ']' :: '\n' :: rest)) =
      some (d', rest) := by
  have hpath := scanPath_header hne hroom ('\n' :: rest)
  have hmark : scanMark ']' (']' :: '\n' :: rest) = some ('\n' :: rest) := rfl
  have hend : scanLineEnd ('\n' :: rest) = some rest := rfl
  obtain ⟨c, s, hhead, hc⟩ := path_head_ne hne
  rw [hhead, List.cons_append] at hpath ⊢
  have hheader : readHeader d ('[' :: c :: (s ++ ']' :: '\n' :: rest)) =
      some (d', '\n' :: rest) := by
    rw [readHeader]
    · rw [hpath]
      dsimp only [Option.bind_eq_bind, Option.bind_some]
      rw [hmark]
      dsimp only [Option.bind_some]
      rw [hd]
      rfl
    · exact fun _ heq => hc (List.cons.inj heq).1
  have hskip : skipBlanks ('[' :: c :: (s ++ ']' :: '\n' :: rest)) =
      '[' :: c :: (s ++ ']' :: '\n' :: rest) := rfl
  rw [readLine, hskip]
  change (readHeader d ('[' :: c :: (s ++ ']' :: '\n' :: rest))).bind _ = _
  rw [hheader]
  dsimp only [Option.bind_some]
  rw [hend]
  rfl

/-! ## Documents -/

/-- Some lines lead from a draft to another, whatever follows them. -/
def Leads (d : Draft) (lines : List Char) (d' : Draft) : Prop :=
  ∀ rest fuel, (lines ++ rest).length ≤ fuel →
    ∃ later, rest.length ≤ later ∧ readLines fuel d (lines ++ rest) = readLines later d' rest

namespace Leads

variable {d d' d'' : Draft} {lines more : List Char}

theorem refl (d : Draft) : Leads d [] d :=
  fun _ fuel hfuel => ⟨fuel, hfuel, rfl⟩

theorem trans (h : Leads d lines d') (h' : Leads d' more d'') : Leads d (lines ++ more) d'' := by
  intro rest fuel hfuel
  rw [List.append_assoc] at hfuel ⊢
  obtain ⟨between, hbetween, heq⟩ := h (more ++ rest) fuel hfuel
  obtain ⟨later, hlater, heq'⟩ := h' rest between hbetween
  exact ⟨later, hlater, heq.trans heq'⟩

theorem of_readLine (hne : lines ≠ []) (h : ∀ rest, readLine d (lines ++ rest) = some (d', rest)) :
    Leads d lines d' := by
  intro rest fuel hfuel
  have hrest := h rest
  cases lines with
  | nil => exact absurd rfl hne
  | cons c lines =>
    rw [List.cons_append] at hfuel hrest ⊢
    rw [List.length_cons, List.length_append] at hfuel
    obtain ⟨later, rfl⟩ : ∃ n, fuel = n + 1 := ⟨fuel - 1, by omega⟩
    refine ⟨later, by omega, ?_⟩
    rw [readLines, hrest]
    · rfl
    · exact List.cons_ne_nil _ _

/-- A blank line changes nothing. -/
theorem blank (d : Draft) : Leads d ['\n'] d :=
  of_readLine (by simp) fun _ => rfl

/-- The lines of some members put them into the table that is open, in their order. -/
theorem members {ms : List (String × Json)} (hms : ∀ m ∈ ms, Legible m.2)
    (h : ms.foldlM (fun d m => d.add [m.1] m.2) d = some d') :
    Leads d ((printMembers ms).flatMap (· ++ ['\n'])) d' := by
  induction ms generalizing d with
  | nil =>
    cases h
    exact refl _
  | cons m ms ih =>
    obtain ⟨hm, hlater⟩ := List.forall_mem_cons.1 hms
    obtain ⟨next, hadd, hfold⟩ := Option.bind_eq_some_iff.1 h
    obtain ⟨line, hline, hread⟩ := readLine_member hm hadd
    have hprint : printMembers (m :: ms) = line :: printMembers ms := by
      have hsingle : printMembers (m :: ms) = printMembers [(m.1, m.2)] ++ printMembers ms := by
        simp [printMembers]
      rw [hsingle, hline, List.singleton_append]
    rw [hprint, List.flatMap_cons]
    exact (of_readLine (by simp) fun rest => by simpa using hread rest).trans (ih hlater hfold)

end Leads

/-- A section whose values are those of settings, below a header that can be read. -/
structure Section.Legible (s : Section) : Prop where
  header_ne_nil : s.header ≠ []
  header_length : s.header.length ≤ depthLimit
  members : ∀ m ∈ s.members, Toml.Legible m.2

/-- What a section does to a draft: its table is opened, and then takes its members. -/
def Section.fill (s : Section) (d : Draft) : Option Draft := do
  s.members.foldlM (fun d m => d.add [m.1] m.2) (← d.openTable s.header)

/-- The entries of a table that has values only. -/
def Entries.ofMembers (ms : List (String × Json)) : Entries := ms.map fun m => (m.1, .value m.2)

/-- A key that is new takes its value behind those that are there. -/
theorem Draft.add_new {d : Draft} {key : String} (v : Json) (hnew : key ∉ d.current.map (·.1)) :
    d.add [key] v = some { d with current := d.current ++ [(key, .value v)] } := by
  have hlookup : d.current.lookup key = none := lookup_eq_none_of_not_mem hnew
  simp [add, insertValue, descend, hlookup, Standing.header]

/-- Members under different keys are added as they stand. -/
theorem Draft.add_members {ms : List (String × Json)} {d : Draft}
    (hnodup : (d.current.map (·.1) ++ ms.map (·.1)).Nodup) :
    ms.foldlM (fun d m => d.add [m.1] m.2) d =
      some { d with current := d.current ++ Entries.ofMembers ms } := by
  induction ms generalizing d with
  | nil => simp [Entries.ofMembers]
  | cons m ms ih =>
    have hnew : m.1 ∉ d.current.map (·.1) := fun hm =>
      (List.nodup_append.1 hnodup).2.2 m.1 hm m.1 (by simp) rfl
    rw [List.foldlM_cons, add_new m.2 hnew]
    refine (ih (by simpa using hnodup)).trans ?_
    simp [Entries.ofMembers]

/-- **A section whose table is new fills it with its members.** -/
theorem Section.fill_of_openTable {s : Section} {d : Draft} {root : Entries} {path : List String}
    (hopen : d.openTable s.header = some ⟨root, path, false, []⟩)
    (hnodup : (s.members.map (·.1)).Nodup) :
    s.fill d = some ⟨root, path, false, Entries.ofMembers s.members⟩ := by
  rw [fill, hopen]
  exact Draft.add_members (by simpa using hnodup)

theorem Section.leads {s : Section} {d d' : Draft} (hs : s.Legible) (h : s.fill d = some d') :
    Leads d s.print d' := by
  obtain ⟨opened, hopen, hfold⟩ := Option.bind_eq_some_iff.1 h
  have hheader : Leads d ('[' :: (['.'].intercalate (s.header.map printKey) ++ [']', '\n']))
      opened :=
    .of_readLine (by simp) fun rest => by
      simpa using readLine_header hs.header_ne_nil hs.header_length hopen rest
  have hprint : s.print = '[' :: (['.'].intercalate (s.header.map printKey) ++ [']', '\n']) ++
      (printMembers s.members).flatMap (· ++ ['\n']) := by
    simp [Section.print]
  rw [hprint]
  exact hheader.trans (.members hs.members hfold)

theorem leads_sections {sections : List Section} {d d' : Draft} (hs : ∀ s ∈ sections, s.Legible)
    (h : sections.foldlM (fun d s => s.fill d) d = some d') :
    Leads d (['\n'].intercalate (sections.map (·.print))) d' := by
  induction sections generalizing d with
  | nil =>
    cases h
    exact .refl _
  | cons s sections ih =>
    obtain ⟨hfirst, hlater⟩ := List.forall_mem_cons.1 hs
    obtain ⟨next, hfill, hfold⟩ := Option.bind_eq_some_iff.1 h
    have hleads := Section.leads hfirst hfill
    cases sections with
    | nil =>
      cases hfold
      rwa [List.map_singleton, List.intercalate_singleton]
    | cons t sections =>
      rw [List.map_cons, List.map_cons, List.intercalate_cons_cons]
      exact (hleads.trans (.blank next)).trans (ih hlater hfold)

/-- **A document that is printed is read** as the tables that its sections fill, one after
another. -/
theorem parse_printDocument {sections : List Section} {d : Draft} {root : Entries}
    (hs : ∀ s ∈ sections, s.Legible)
    (hd : sections.foldlM (fun d s => s.fill d) .empty = some d) (hroot : d.finish = some root) :
    parse (printDocument sections) = some (.obj (Entries.toMembers root)) := by
  obtain ⟨later, -, hlines⟩ := leads_sections hs hd []
    ((['\n'].intercalate (sections.map (·.print))).length + 1) (by simp)
  rw [List.append_nil] at hlines
  have hend : readLines later d [] = some d := by
    cases later <;> rfl
  -- a document begins with the bracket of a header, if with anything
  have hmark : ∀ rest, ['\n'].intercalate (sections.map (·.print)) ≠ '\uFEFF' :: rest := by
    intro rest heq
    cases sections with
    | nil => cases heq
    | cons s sections =>
      have hhead : ∃ text, ['\n'].intercalate ((s :: sections).map (·.print)) = '[' :: text := by
        cases sections with
        | nil => exact ⟨_, rfl⟩
        | cons t sections => exact ⟨_, rfl⟩
      obtain ⟨text, htext⟩ := hhead
      rw [htext] at heq
      exact absurd (List.cons.inj heq).1 (by decide)
  rw [parse, printDocument, String.toList_ofList]
  split
  · rename_i rest heq
    exact absurd heq (hmark rest)
  · rw [hlines, hend]
    simp [hroot]

end Toml
end ModularHost
