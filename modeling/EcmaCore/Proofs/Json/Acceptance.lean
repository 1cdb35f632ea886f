/-
This file proves that parsing accepts exactly the texts of the grammar that nest at
most 512 deep, with the tree that they spell, and that it refuses a text as too deep
exactly where the text goes deeper before it breaks any other rule. Every other
refusal is one of spelling.
-/

import EcmaCore.Proofs.Json.Reading

namespace EcmaCore.Json

open Grammar

/-! ### Arrays -/

section Array

variable {room : Nat} {reader : Reader Tree}

theorem Grammar.Elements.of_blanks {Item : Tree → Units → Units → Prop} {trees : List Tree}
    {text inner rest : Units} (blanks : Blanks text inner)
    (spelled : Elements Item trees inner rest) : Elements Item trees text rest := by
  cases spelled with
  | last before item closed => exact Elements.last (blanks.trans before) item closed
  | more before item comma others => exact Elements.more (blanks.trans before) item comma others

/-- Elements may be read from their first unit on that is no blank, which closes nothing. -/
theorem Grammar.Elements.inner {trees : List Tree} {text rest : Units}
    (spelled : Elements Grammar.Value trees text rest) :
    Elements Grammar.Value trees (skipBlanks text) rest ∧
      ∀ left, skipBlanks text ≠ 0x5D :: left := by
  cases spelled with
  | last before item closed =>
    rw [before.skipBlanks_start item.starts]
    obtain ⟨unit, others, rfl, _, nonempty⟩ := item.starts
    exact ⟨Elements.last (Blanks.none _) item closed,
      fun left equal => nonempty (List.cons.inj equal).1⟩
  | more before item comma others =>
    rw [before.skipBlanks_start item.starts]
    obtain ⟨unit, units, rfl, _, nonempty⟩ := item.starts
    exact ⟨Elements.more (Blanks.none _) item comma others,
      fun left equal => nonempty (List.cons.inj equal).1⟩

theorem Grammar.ArrayStart.of_blanks {text inner start : Units} (blanks : Blanks text inner)
    (opened : ArrayStart room inner start) : ArrayStart room text start := by
  cases opened with
  | first before => exact ArrayStart.first (blanks.trans before)
  | next before item shallow comma others =>
    exact ArrayStart.next (blanks.trans before) item shallow comma others

theorem Grammar.ArrayStart.inner {text start : Units} (opened : ArrayStart room text start)
    (deeper : Overflows room start) :
    ArrayStart room (skipBlanks text) start ∧ ∀ left, skipBlanks text ≠ 0x5D :: left := by
  cases opened with
  | first before =>
    rw [before.skipBlanks_start deeper.starts]
    obtain ⟨unit, others, rfl, _, nonempty⟩ := deeper.starts
    exact ⟨ArrayStart.first (Blanks.none _), fun left equal => nonempty (List.cons.inj equal).1⟩
  | next before item shallow comma others =>
    rw [before.skipBlanks_start item.starts]
    obtain ⟨unit, units, rfl, _, nonempty⟩ := item.starts
    exact ⟨ArrayStart.next (Blanks.none _) item shallow comma others,
      fun left equal => nonempty (List.cons.inj equal).1⟩

theorem array_of_close {text left : Units} (closed : skipBlanks text = 0x5D :: left) :
    array reader text = .ok (.array [], left) := by
  rw [array, closed]
  rfl

theorem array_of_elements {text : Units} (nonempty : ∀ left, skipBlanks text ≠ 0x5D :: left) :
    array reader text =
      (elements reader ((skipBlanks text).length + 1) (skipBlanks text)).map
        fun (trees, left) => (.array trees, left) := by
  unfold array
  split
  · rename_i left closed
    exact absurd closed (nonempty left)
  · rfl

theorem Reads.array_ok (reads : Reads room reader) {text rest : Units} {tree : Tree}
    (read : array reader text = .ok (tree, rest)) :
    Grammar.Value tree (0x5B :: text) rest ∧ tree.depth ≤ room + 1 := by
  have before := blanks_skipBlanks text
  by_cases close : ∃ left, skipBlanks text = 0x5D :: left
  · obtain ⟨left, closed⟩ := close
    rw [array_of_close closed] at read
    cases read
    rw [closed] at before
    exact ⟨Grammar.Value.emptyArray before, Nat.succ_le_succ (Nat.zero_le room)⟩
  · rw [array_of_elements (not_exists.mp close)] at read
    obtain ⟨⟨trees, left⟩, elementsRead, equal⟩ := map_eq_ok.mp read
    cases equal
    obtain ⟨spelled, shallow⟩ := reads.elements_ok elementsRead
    exact ⟨Grammar.Value.array (spelled.of_blanks before), Nat.succ_le_succ shallow⟩

theorem Reads.array_eq (reads : Reads room reader) {trees : List Tree} {text rest : Units}
    (spelled : Elements Grammar.Value trees text rest) (shallow : elementsDepth trees ≤ room) :
    array reader text = .ok (.array trees, rest) := by
  obtain ⟨inner, nonempty⟩ := spelled.inner
  rw [array_of_elements nonempty, reads.elements_eq inner shallow (Nat.le_succ _)]
  rfl

theorem Reads.array_deep (reads : Reads room reader) {text : Units} {stop : Stop}
    (read : array reader text = .error stop) (deep : ¬ stop.Shallow) :
    Overflows (room + 1) (0x5B :: text) := by
  by_cases close : ∃ left, skipBlanks text = 0x5D :: left
  · obtain ⟨left, closed⟩ := close
    rw [array_of_close closed] at read
    cases read
  · rw [array_of_elements (not_exists.mp close)] at read
    obtain ⟨start, opened, deeper⟩ := reads.elements_deep (map_eq_error.mp read) deep
    exact Overflows.array (opened.of_blanks (blanks_skipBlanks text)) deeper

theorem Reads.array_overflow (reads : Reads room reader) {text start : Units}
    (opened : ArrayStart room text start) (deeper : Overflows room start) :
    ∃ stop, array reader text = .error stop ∧ ¬ stop.Shallow := by
  obtain ⟨inner, nonempty⟩ := opened.inner deeper
  obtain ⟨stop, read, deep⟩ := reads.elements_overflow inner deeper (Nat.le_succ _)
  exact ⟨stop, by rw [array_of_elements nonempty, read]; rfl, deep⟩

end Array

/-! ### Objects -/

section Object

variable {room : Nat} {reader : Reader Tree}

theorem Grammar.MemberKey.of_blanks {key text inner start : Units} (blanks : Blanks text inner)
    (name : MemberKey key inner start) : MemberKey key text start := by
  obtain ⟨before, spelled, between, last⟩ := name
  exact MemberKey.parts (blanks.trans before) spelled between last

theorem Grammar.MemberKey.inner {key text start : Units} (name : MemberKey key text start) :
    MemberKey key (skipBlanks text) start ∧ ∀ left, skipBlanks text ≠ 0x7D :: left := by
  obtain ⟨before, spelled, between, last⟩ := name
  rw [before.skipBlanks_cons (by decide)]
  exact ⟨MemberKey.parts (Blanks.none _) spelled between last,
    fun left equal => absurd (List.cons.inj equal).1 (by decide)⟩

theorem Grammar.Members.of_blanks {Item : Tree → Units → Units → Prop}
    {entries : List (Units × Tree)} {text inner rest : Units} (blanks : Blanks text inner)
    (spelled : Members Item entries inner rest) : Members Item entries text rest := by
  cases spelled with
  | last name item closed => exact Members.last (name.of_blanks blanks) item closed
  | more name item comma others => exact Members.more (name.of_blanks blanks) item comma others

/-- Members may be read from their first unit on that is no blank, which closes nothing. -/
theorem Grammar.Members.inner {Item : Tree → Units → Units → Prop}
    {entries : List (Units × Tree)} {text rest : Units}
    (spelled : Members Item entries text rest) :
    Members Item entries (skipBlanks text) rest ∧ ∀ left, skipBlanks text ≠ 0x7D :: left := by
  cases spelled with
  | last name item closed => exact ⟨Members.last name.inner.1 item closed, name.inner.2⟩
  | more name item comma others =>
    exact ⟨Members.more name.inner.1 item comma others, name.inner.2⟩

theorem Grammar.ObjectStart.of_blanks {text inner start : Units} (blanks : Blanks text inner)
    (opened : ObjectStart room inner start) : ObjectStart room text start := by
  cases opened with
  | first name => exact ObjectStart.first (name.of_blanks blanks)
  | next name item shallow comma others =>
    exact ObjectStart.next (name.of_blanks blanks) item shallow comma others

theorem Grammar.ObjectStart.inner {text start : Units} (opened : ObjectStart room text start) :
    ObjectStart room (skipBlanks text) start ∧ ∀ left, skipBlanks text ≠ 0x7D :: left := by
  cases opened with
  | first name => exact ⟨ObjectStart.first name.inner.1, name.inner.2⟩
  | next name item shallow comma others =>
    exact ⟨ObjectStart.next name.inner.1 item shallow comma others, name.inner.2⟩

theorem object_of_close {text left : Units} (closed : skipBlanks text = 0x7D :: left) :
    object reader text = .ok (.object [], left) := by
  rw [object, closed]
  rfl

theorem object_of_members {text : Units} (nonempty : ∀ left, skipBlanks text ≠ 0x7D :: left) :
    object reader text =
      (members reader ((skipBlanks text).length + 1) (skipBlanks text)).map
        fun (entries, left) => (.object entries, left) := by
  unfold object
  split
  · rename_i left closed
    exact absurd closed (nonempty left)
  · rfl

theorem Reads.object_ok (reads : Reads room reader) {text rest : Units} {tree : Tree}
    (read : object reader text = .ok (tree, rest)) :
    Grammar.Value tree (0x7B :: text) rest ∧ tree.depth ≤ room + 1 := by
  have before := blanks_skipBlanks text
  by_cases close : ∃ left, skipBlanks text = 0x7D :: left
  · obtain ⟨left, closed⟩ := close
    rw [object_of_close closed] at read
    cases read
    rw [closed] at before
    exact ⟨Grammar.Value.emptyObject before, Nat.succ_le_succ (Nat.zero_le room)⟩
  · rw [object_of_members (not_exists.mp close)] at read
    obtain ⟨⟨entries, left⟩, membersRead, equal⟩ := map_eq_ok.mp read
    cases equal
    obtain ⟨spelled, shallow⟩ := reads.members_ok membersRead
    exact ⟨Grammar.Value.object (spelled.of_blanks before), Nat.succ_le_succ shallow⟩

theorem Reads.object_eq (reads : Reads room reader) {entries : List (Units × Tree)}
    {text rest : Units} (spelled : Members Grammar.Value entries text rest)
    (shallow : membersDepth entries ≤ room) : object reader text = .ok (.object entries, rest) := by
  obtain ⟨inner, nonempty⟩ := spelled.inner
  rw [object_of_members nonempty, reads.members_eq inner shallow (Nat.le_succ _)]
  rfl

theorem Reads.object_deep (reads : Reads room reader) {text : Units} {stop : Stop}
    (read : object reader text = .error stop) (deep : ¬ stop.Shallow) :
    Overflows (room + 1) (0x7B :: text) := by
  by_cases close : ∃ left, skipBlanks text = 0x7D :: left
  · obtain ⟨left, closed⟩ := close
    rw [object_of_close closed] at read
    cases read
  · rw [object_of_members (not_exists.mp close)] at read
    obtain ⟨start, opened, deeper⟩ := reads.members_deep (map_eq_error.mp read) deep
    exact Overflows.object (opened.of_blanks (blanks_skipBlanks text)) deeper

theorem Reads.object_overflow (reads : Reads room reader) {text start : Units}
    (opened : ObjectStart room text start) (deeper : Overflows room start) :
    ∃ stop, object reader text = .error stop ∧ ¬ stop.Shallow := by
  obtain ⟨inner, nonempty⟩ := opened.inner
  obtain ⟨stop, read, deep⟩ := reads.members_overflow inner deeper (Nat.le_succ _)
  exact ⟨stop, by rw [object_of_members nonempty, read]; rfl, deep⟩

end Object

/-! ### Values -/

theorem literal_ok {tree read : Tree} {word text rest : Units}
    (equal : literal tree word text = .ok (read, rest)) : read = tree ∧ text = word ++ rest := by
  induction word generalizing text with
  | nil => cases equal; exact ⟨rfl, rfl⟩
  | cons expected word inductionHypothesis =>
    cases text with
    | nil => cases equal
    | cons unit text =>
      rw [literal] at equal
      split at equal
      · rename_i same
        obtain ⟨treeEqual, textEqual⟩ := inductionHypothesis equal
        exact ⟨treeEqual, by rw [same, textEqual]; rfl⟩
      · cases equal

theorem literal_append (tree : Tree) (word rest : Units) :
    literal tree word (word ++ rest) = .ok (tree, rest) := by
  induction word with
  | nil => rfl
  | cons expected word inductionHypothesis =>
    rw [List.cons_append, literal, if_pos rfl, inductionHypothesis]

/-- A digit is none of the units that another value starts with. -/
theorem ne_of_isDigit {unit mark : CodeUnit} (digit : (digitOfCode? 10 unit.toNat).isSome = true)
    (noDigit : (digitOfCode? 10 mark.toNat).isSome = false) : unit ≠ mark := by
  rintro rfl
  rw [noDigit] at digit
  cases digit

/-- A number is read by the reader of numbers. -/
theorem value_number {room : Nat} {unit : CodeUnit} (others : Units)
    (start : unit = 0x2D ∨ (digitOfCode? 10 unit.toNat).isSome = true) :
    value room (unit :: others) =
      (number (unit :: others)).map fun (numeral, left) => (.number numeral.toNumber, left) := by
  have brace : unit ≠ 0x7B := by
    rcases start with rfl | digit
    · decide
    · exact ne_of_isDigit digit (by decide)
  have bracket : unit ≠ 0x5B := by
    rcases start with rfl | digit
    · decide
    · exact ne_of_isDigit digit (by decide)
  have quote : unit ≠ 0x22 := by
    rcases start with rfl | digit
    · decide
    · exact ne_of_isDigit digit (by decide)
  rw [value.eq_def]
  simp only [if_neg brace, if_neg bracket, if_neg quote, if_pos start]

/-- A value that no bracket or brace opens is read by the grammar, however little room is left. -/
theorem value_ok_of_flat {room : Nat} {unit : CodeUnit} {text rest : Units} {tree : Tree}
    (noBrace : unit ≠ 0x7B) (noBracket : unit ≠ 0x5B)
    (read : value room (unit :: text) = .ok (tree, rest)) :
    Grammar.Value tree (unit :: text) rest ∧ tree.depth ≤ room := by
  rw [value.eq_def] at read
  simp only [if_neg noBrace, if_neg noBracket] at read
  split_ifs at read with quote start t f n
  · obtain ⟨⟨units, left⟩, bodyRead, equal⟩ := map_eq_ok.mp read
    cases equal
    subst quote
    exact ⟨Grammar.Value.string (stringBody_ok bodyRead), Nat.zero_le room⟩
  · obtain ⟨⟨numeral, left⟩, numberRead, equal⟩ := map_eq_ok.mp read
    cases equal
    exact ⟨Grammar.Value.number (number_ok numberRead) numeral.denotes_toNumber, Nat.zero_le room⟩
  · obtain ⟨rfl, textEqual⟩ := literal_ok read
    rw [textEqual]
    exact ⟨Grammar.Value.trueWord rest, Nat.zero_le room⟩
  · obtain ⟨rfl, textEqual⟩ := literal_ok read
    rw [textEqual]
    exact ⟨Grammar.Value.falseWord rest, Nat.zero_le room⟩
  · obtain ⟨rfl, textEqual⟩ := literal_ok read
    rw [textEqual]
    exact ⟨Grammar.Value.null rest, Nat.zero_le room⟩
  · cases read

/-- Where no bracket or brace stands there is no complaint about depth. -/
theorem value_shallow_of_flat {room : Nat} {unit : CodeUnit} {text : Units} {stop : Stop}
    (noBrace : unit ≠ 0x7B) (noBracket : unit ≠ 0x5B)
    (read : value room (unit :: text) = .error stop) : stop.Shallow := by
  rw [value.eq_def] at read
  simp only [if_neg noBrace, if_neg noBracket] at read
  split_ifs at read with quote start t f n
  · exact stringBody_shallow (map_eq_error.mp read)
  · exact number_shallow (map_eq_error.mp read)
  · exact literal_shallow read
  · exact literal_shallow read
  · exact literal_shallow read
  · exact unexpected_shallow read

/-- The reader of values does what `Reads` asks of it where a bracket or a brace opens a value. -/
structure ReadsNested (room : Nat) : Prop where
  array_ok : ∀ {text rest : Units} {tree : Tree}, value room (0x5B :: text) = .ok (tree, rest) →
    Grammar.Value tree (0x5B :: text) rest ∧ tree.depth ≤ room
  object_ok : ∀ {text rest : Units} {tree : Tree}, value room (0x7B :: text) = .ok (tree, rest) →
    Grammar.Value tree (0x7B :: text) rest ∧ tree.depth ≤ room
  array_eq : ∀ {text rest : Units} {trees : List Tree},
    Grammar.Value (.array trees) (0x5B :: text) rest → elementsDepth trees + 1 ≤ room →
    value room (0x5B :: text) = .ok (.array trees, rest)
  object_eq : ∀ {text rest : Units} {entries : List (Units × Tree)},
    Grammar.Value (.object entries) (0x7B :: text) rest → membersDepth entries + 1 ≤ room →
    value room (0x7B :: text) = .ok (.object entries, rest)
  array_deep : ∀ {text : Units} {stop : Stop}, value room (0x5B :: text) = .error stop →
    ¬ stop.Shallow → Overflows room (0x5B :: text)
  object_deep : ∀ {text : Units} {stop : Stop}, value room (0x7B :: text) = .error stop →
    ¬ stop.Shallow → Overflows room (0x7B :: text)
  overflow : ∀ {text : Units}, Overflows room text →
    ∃ stop, value room text = .error stop ∧ ¬ stop.Shallow

/-- Nothing else depends on the room that is left. -/
theorem ReadsNested.reads {room : Nat} (nested : ReadsNested room) : Reads room (value room) where
  sound := by
    intro text tree rest read
    cases text with
    | nil => rw [value.eq_def] at read; cases read
    | cons unit text =>
      by_cases brace : unit = 0x7B
      · subst brace
        exact nested.object_ok read
      by_cases bracket : unit = 0x5B
      · subst bracket
        exact nested.array_ok read
      exact value_ok_of_flat brace bracket read
  complete := by
    intro text tree rest spelled shallow ends
    cases spelled with
    | null rest =>
      rw [value.eq_def, unitsOf_null]
      exact literal_append .null [0x6E, 0x75, 0x6C, 0x6C] rest
    | trueWord rest =>
      rw [value.eq_def, unitsOf_true]
      exact literal_append (.boolean true) [0x74, 0x72, 0x75, 0x65] rest
    | falseWord rest =>
      rw [value.eq_def, unitsOf_false]
      exact literal_append (.boolean false) [0x66, 0x61, 0x6C, 0x73, 0x65] rest
    | number spelled denotes =>
      obtain ⟨unit, others, rfl, start⟩ := spelled.starts
      rw [value_number others start, spelled.number_eq ends, denotes.eq_toNumber]
      rfl
    | string spelled =>
      rw [value.eq_def]
      exact map_eq_ok.mpr ⟨_, spelled.stringBody_eq, rfl⟩
    | emptyArray closed => exact nested.array_eq (Grammar.Value.emptyArray closed) shallow
    | array spelled => exact nested.array_eq (Grammar.Value.array spelled) shallow
    | emptyObject closed => exact nested.object_eq (Grammar.Value.emptyObject closed) shallow
    | object spelled => exact nested.object_eq (Grammar.Value.object spelled) shallow
  deep := by
    intro text stop read deep
    cases text with
    | nil => rw [value.eq_def] at read; exact absurd (unexpected_shallow read) deep
    | cons unit text =>
      by_cases brace : unit = 0x7B
      · subst brace
        exact nested.object_deep read deep
      by_cases bracket : unit = 0x5B
      · subst bracket
        exact nested.array_deep read deep
      exact absurd (value_shallow_of_flat brace bracket read) deep
  overflow := nested.overflow

theorem value_bracket_zero (text : Units) :
    value 0 (0x5B :: text) = .error ⟨.tooDeep, 0x5B :: text⟩ := by
  rw [value.eq_def]
  rfl

theorem value_brace_zero (text : Units) :
    value 0 (0x7B :: text) = .error ⟨.tooDeep, 0x7B :: text⟩ := by
  rw [value.eq_def]
  rfl

theorem value_bracket (room : Nat) (text : Units) :
    value (room + 1) (0x5B :: text) = array (value room) text := by
  rw [value.eq_def]
  rfl

theorem value_brace (room : Nat) (text : Units) :
    value (room + 1) (0x7B :: text) = object (value room) text := by
  rw [value.eq_def]
  rfl

/-- Without room every bracket and every brace is one too many. -/
theorem readsNested_zero : ReadsNested 0 := by
  refine ⟨?_, ?_, ?_, ?_, ?_, ?_, ?_⟩
  · intro text rest tree read
    rw [value_bracket_zero] at read
    cases read
  · intro text rest tree read
    rw [value_brace_zero] at read
    cases read
  · exact fun _ shallow => absurd shallow (Nat.not_succ_le_zero _)
  · exact fun _ shallow => absurd shallow (Nat.not_succ_le_zero _)
  · exact fun _ _ => Overflows.bracket _
  · exact fun _ _ => Overflows.brace _
  · intro text deeper
    cases deeper with
    | bracket text => exact ⟨_, value_bracket_zero text, fun shallow => shallow rfl⟩
    | brace text => exact ⟨_, value_brace_zero text, fun shallow => shallow rfl⟩

/-- With room for one level more, arrays and objects are read by their own readers. -/
theorem Reads.nested {room : Nat} (reads : Reads room (value room)) : ReadsNested (room + 1) := by
  refine ⟨?_, ?_, ?_, ?_, ?_, ?_, ?_⟩
  · intro text rest tree read
    rw [value_bracket] at read
    exact reads.array_ok read
  · intro text rest tree read
    rw [value_brace] at read
    exact reads.object_ok read
  · intro text rest trees spelled shallow
    rw [value_bracket]
    cases spelled with
    | emptyArray closed => exact array_of_close (closed.skipBlanks_cons (by decide))
    | array spelled => exact reads.array_eq spelled (Nat.le_of_succ_le_succ shallow)
  · intro text rest entries spelled shallow
    rw [value_brace]
    cases spelled with
    | emptyObject closed => exact object_of_close (closed.skipBlanks_cons (by decide))
    | object spelled => exact reads.object_eq spelled (Nat.le_of_succ_le_succ shallow)
  · intro text stop read deep
    rw [value_bracket] at read
    exact reads.array_deep read deep
  · intro text stop read deep
    rw [value_brace] at read
    exact reads.object_deep read deep
  · intro text deeper
    cases deeper with
    | array opened deeper =>
      rw [value_bracket]
      exact reads.array_overflow opened deeper
    | object opened deeper =>
      rw [value_brace]
      exact reads.object_overflow opened deeper

/-- At every depth the reader of values accepts exactly the grammar. -/
theorem value_reads (room : Nat) : Reads room (value room) := by
  induction room with
  | zero => exact readsNested_zero.reads
  | succ room inductionHypothesis => exact inductionHypothesis.nested.reads

/-! ### Whole texts -/

theorem document_ok {text : Units} {tree : Tree} (read : document text = .ok tree) :
    Document tree text ∧ tree.depth ≤ 512 := by
  obtain ⟨⟨other, after⟩, valueRead, read⟩ := bind_eq_ok.mp read
  obtain ⟨spelled, shallow⟩ := (value_reads maxDepth).sound valueRead
  have closed := blanks_skipBlanks after
  dsimp only at read
  split at read
  · rename_i nothing
    cases read
    rw [nothing] at closed
    exact ⟨Document.parts (blanks_skipBlanks text) spelled closed, shallow⟩
  · cases read

theorem Grammar.Document.document_eq {text : Units} {tree : Tree} (spelled : Document tree text)
    (shallow : tree.depth ≤ 512) : document text = .ok tree := by
  obtain ⟨before, spelled, closed⟩ := spelled
  rename_i start after
  have valueRead : value maxDepth (skipBlanks text) = .ok (tree, after) := by
    rw [before.skipBlanks_start spelled.starts]
    exact (value_reads maxDepth).complete spelled shallow closed.endsNumber_of_nil
  refine bind_eq_ok.mpr ⟨_, valueRead, ?_⟩
  dsimp only
  rw [closed.skipBlanks_nil]

theorem document_deep {text : Units} {stop : Stop} (read : document text = .error stop)
    (deep : ¬ stop.Shallow) : TooDeep text := by
  rcases bind_eq_error.mp read with early | ⟨⟨other, after⟩, _, late⟩
  · exact TooDeep.parts (blanks_skipBlanks text) ((value_reads maxDepth).deep early deep)
  · dsimp only at late
    split at late
    · cases late
    · exact absurd (unexpected_shallow late) deep

theorem Grammar.TooDeep.document_error {text : Units} (deep : TooDeep text) :
    ∃ stop, document text = .error stop ∧ ¬ stop.Shallow := by
  obtain ⟨before, deeper⟩ := deep
  obtain ⟨stop, read, objection⟩ := (value_reads maxDepth).overflow deeper
  refine ⟨stop, bind_eq_error.mpr (Or.inl ?_), objection⟩
  rw [before.skipBlanks_start deeper.starts]
  exact read

theorem fault_tooDeep_iff {length : Nat} {stop : Stop} :
    stop.fault length = .tooDeep ↔ ¬ stop.Shallow := by
  obtain ⟨objection, rest⟩ := stop
  cases objection <;> cases rest <;> simp [Stop.fault, Stop.Shallow]

/-- Parsing accepts the texts of the grammar that nest at most 512 deep, with their trees. -/
theorem parse_ok_iff {text : Units} {tree : Tree} :
    parse text = .ok tree ↔ Document tree text ∧ tree.depth ≤ 512 := by
  unfold parse
  constructor
  · intro read
    cases documentRead : document text with
    | error stop => rw [documentRead] at read; cases read
    | ok other =>
      rw [documentRead] at read
      cases read
      exact document_ok documentRead
  · rintro ⟨spelled, shallow⟩
    rw [spelled.document_eq shallow]
    rfl

/-- Parsing refuses a text as too deep where it goes deeper than 512 levels before it breaks any
other rule. -/
theorem parse_tooDeep_iff {text : Units} : parse text = .error .tooDeep ↔ TooDeep text := by
  unfold parse
  constructor
  · intro read
    cases documentRead : document text with
    | ok tree => rw [documentRead] at read; cases read
    | error stop =>
      rw [documentRead] at read
      exact document_deep documentRead (fault_tooDeep_iff.mp (Except.error.inj read))
  · intro deep
    obtain ⟨stop, read, objection⟩ := deep.document_error
    rw [read]
    exact congrArg Except.error (fault_tooDeep_iff.mpr objection)

end EcmaCore.Json
