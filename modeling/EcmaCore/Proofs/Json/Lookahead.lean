/-
This file proves that reading does not look ahead: what the reader of values does until it
takes a unit does not depend on anything after the unit. So if it did not expect a unit, it
does not expect it in any text that starts in the same way, and no text of the grammar
starts in this way.

The grammar has no limit on depth, and so the second text is read with as much room for
arrays and objects as it needs. A complaint about depth is none about a unit, so more room
makes no difference to the units that are not expected.
-/

import EcmaCore.Proofs.Json.Parallel

namespace EcmaCore.Json

variable {α : Type} {unit : CodeUnit} {rest other text twin : Units}

/-! ### Marks -/

/-- Goes on after a mark if the text starts with it, and otherwise with the text itself. -/
def onMark (mark : CodeUnit) (next otherwise : Units → Except Stop (α × Units)) (text : Units) :
    Except Stop (α × Units) :=
  match text with
  | [] => otherwise []
  | first :: tail => if first = mark then next tail else otherwise (first :: tail)

section Marks

variable {mark : CodeUnit} {next otherwise twinNext twinOtherwise : Units → Except Stop (α × Units)}

theorem within_unexpected (text : Units) :
    Within text.length (unexpected text : Except Stop (α × Units)) := fun _ => Nat.le_refl _

theorem within_ok (value : α) (left : Units) : Within left.length (.ok (value, left)) :=
  Nat.le_refl left.length

theorem within_onMark (nextWithin : ∀ text, Within text.length (next text))
    (otherwiseWithin : ∀ text, Within text.length (otherwise text)) (text : Units) :
    Within text.length (onMark mark next otherwise text) := by
  cases text with
  | nil => exact otherwiseWithin []
  | cons first tail =>
    rw [onMark]
    split
    · exact (nextWithin tail).mono (Nat.le_succ _)
    · exact otherwiseWithin (first :: tail)

theorem alike_onMark (parallel : Parallel unit rest other text twin)
    (within : Within text.length (onMark mark next otherwise text))
    (nextAlike : ∀ {tail twinTail}, tail.length < text.length → twinTail.length < twin.length →
      Parallel unit rest other tail twinTail →
      Alike unit rest other (next tail) (twinNext twinTail))
    (otherwiseAlike : Alike unit rest other (otherwise text) (twinOtherwise twin)) :
    Alike unit rest other (onMark mark next otherwise text)
      (onMark mark twinNext twinOtherwise twin) := by
  rcases parallel.head with short | ⟨first, tail, twinTail, rfl, rfl, later⟩
  · exact .passed (within.mono short)
  rw [onMark, onMark]
  split
  · exact nextAlike (Nat.lt_succ_self _) (Nat.lt_succ_self _) later
  · exact otherwiseAlike

end Marks

/-! ### Elements and members -/

/-- What happens after an item: a comma leads on, the closing mark ends the list. -/
def afterItem (closing : CodeUnit) (comma close : Units → Except Stop (α × Units)) :
    Units → Except Stop (α × Units) :=
  onMark 0x2C comma (onMark closing close unexpected)

theorem elements_succ (reader : Reader Tree) (bound : Nat) (text : Units) :
    elements reader (bound + 1) text = reader (skipBlanks text) >>= fun item =>
      afterItem 0x5D
        (fun more => (elements reader bound more).map
          fun result => (item.1 :: result.1, result.2))
        (fun left => .ok ([item.1], left)) (skipBlanks item.2) := by
  rw [elements]
  refine congrArg _ (funext fun item => ?_)
  obtain ⟨tree, after⟩ := item
  dsimp only
  generalize skipBlanks after = text
  rw [afterItem, onMark.eq_def]
  split
  · rfl
  · rfl
  · split <;> simp_all [onMark.eq_def]

theorem members_succ (reader : Reader Tree) (bound : Nat) (text : Units) :
    members reader (bound + 1) text = memberKey text >>= fun name =>
      reader name.2 >>= fun item =>
        afterItem 0x7D
          (fun more => (members reader bound more).map
            fun result => ((name.1, item.1) :: result.1, result.2))
          (fun left => .ok ([(name.1, item.1)], left)) (skipBlanks item.2) := by
  rw [members]
  refine congrArg _ (funext fun name => ?_)
  obtain ⟨key, start⟩ := name
  refine congrArg (reader start >>= ·) (funext fun item => ?_)
  obtain ⟨tree, after⟩ := item
  dsimp only
  generalize skipBlanks after = text
  rw [afterItem, onMark.eq_def]
  split
  · rfl
  · rfl
  · split <;> simp_all [onMark.eq_def]

theorem memberKey_eq (text : Units) :
    memberKey text = onMark 0x22 (fun body => stringBody body >>= fun name =>
      onMark 0x3A (fun left => .ok (name.1, skipBlanks left)) unexpected (skipBlanks name.2))
      unexpected (skipBlanks text) := by
  rw [memberKey]
  generalize skipBlanks text = text
  rw [onMark.eq_def]
  split
  · rename_i body
    refine congrArg (stringBody body >>= ·) (funext fun name => ?_)
    obtain ⟨key, after⟩ := name
    dsimp only
    generalize skipBlanks after = text
    rw [onMark.eq_def]
    split
    · rfl
    · split <;> simp_all
  · split <;> simp_all

/-- A reader of elements on the first unit that is no blank. -/
theorem array_eq (reader : Reader Tree) (text : Units) :
    array reader text = onMark 0x5D (fun left => .ok (.array [], left))
      (fun inner => (elements reader (inner.length + 1) inner).map
        fun result => (.array result.1, result.2)) (skipBlanks text) := by
  unfold array
  generalize skipBlanks text = text
  rw [onMark.eq_def]
  split
  · rfl
  · split
    · rfl
    · simp_all
      rfl

theorem object_eq (reader : Reader Tree) (text : Units) :
    object reader text = onMark 0x7D (fun left => .ok (.object [], left))
      (fun inner => (members reader (inner.length + 1) inner).map
        fun result => (.object result.1, result.2)) (skipBlanks text) := by
  unfold object
  generalize skipBlanks text = text
  rw [onMark.eq_def]
  split
  · rfl
  · split
    · rfl
    · simp_all
      rfl

/-- The colon after a key, up to the start of the value. -/
theorem within_colon (key text : Units) :
    Within text.length (onMark 0x3A (fun left => .ok (key, skipBlanks left)) unexpected text) :=
  within_onMark (fun left => (within_ok key (skipBlanks left)).mono (length_skipBlanks_le left))
    within_unexpected text

theorem within_name (body : Units) :
    Within body.length (stringBody body >>= fun name =>
      onMark 0x3A (fun left => .ok (name.1, skipBlanks left)) unexpected (skipBlanks name.2)) :=
  (within_stringBody body).bind fun key left =>
    (within_colon key (skipBlanks left)).mono (length_skipBlanks_le left)

theorem within_memberKey (text : Units) : Within text.length (memberKey text) := by
  rw [memberKey_eq]
  exact Within.mono (within_onMark within_name within_unexpected _) (length_skipBlanks_le text)

theorem alike_memberKey (parallel : Parallel unit rest other text twin) :
    Alike unit rest other (memberKey text) (memberKey twin) := by
  rw [memberKey_eq, memberKey_eq]
  refine alike_onMark parallel.inner (within_onMark within_name within_unexpected _)
    (fun _ _ later => ?_) (.stop parallel.inner)
  refine (alike_stringBody later).bind
    (fun key left => (within_colon key _).mono (length_skipBlanks_le left))
    fun key left twin _ _ parallel => ?_
  exact alike_onMark parallel.inner (within_colon key (skipBlanks left))
    (fun _ _ later => .ok key later.inner) (.stop parallel.inner)

section Lists

variable {reader wider : Reader Tree} (within : ∀ text, Within text.length (reader text))
  (widerWithin : ∀ text, Within text.length (wider text))
  (items : ∀ {text twin}, Parallel unit rest other text twin →
    Alike unit rest other (reader text) (wider twin))

include within

theorem within_elements (bound : Nat) (text : Units) :
    Within text.length (elements reader bound text) := by
  induction bound generalizing text with
  | zero => exact fun _ => Nat.le_refl text.length
  | succ bound inductionHypothesis =>
    rw [elements_succ]
    refine ((within _).mono (length_skipBlanks_le text)).bind fun tree left => ?_
    refine Within.mono ?_ (length_skipBlanks_le left)
    exact within_onMark (fun more => (inductionHypothesis more).map (tree :: ·))
      (within_onMark (within_ok [tree]) within_unexpected) _

theorem within_members (bound : Nat) (text : Units) :
    Within text.length (members reader bound text) := by
  induction bound generalizing text with
  | zero => exact fun _ => Nat.le_refl text.length
  | succ bound inductionHypothesis =>
    rw [members_succ]
    refine (within_memberKey text).bind fun key start => (within start).bind fun tree left => ?_
    refine Within.mono ?_ (length_skipBlanks_le left)
    exact within_onMark (fun more => (inductionHypothesis more).map ((key, tree) :: ·))
      (within_onMark (within_ok [(key, tree)]) within_unexpected) _

/-- After an item and a comma the text is shorter, so a bound that was enough stays enough. -/
theorem enough_after_item {bound : Nat} {start left tail : Units} {tree : Tree}
    (read : reader start = .ok (tree, left)) (shorter : tail.length < (skipBlanks left).length)
    (enough : start.length ≤ bound + 1) : tail.length ≤ bound := by
  have atMost : left.length ≤ start.length := by
    have shrinks := within start
    rwa [read] at shrinks
  have inner := length_skipBlanks_le left
  omega

include widerWithin items

theorem alike_elements {bound twinBound : Nat} (parallel : Parallel unit rest other text twin)
    (enough : text.length ≤ bound) (twinEnough : twin.length ≤ twinBound) :
    Alike unit rest other (elements reader bound text) (elements wider twinBound twin) := by
  induction bound generalizing twinBound text twin with
  | zero =>
    rw [List.eq_nil_of_length_eq_zero (Nat.le_zero.mp enough)]
    exact .passed fun _ => Nat.zero_le _
  | succ bound inductionHypothesis =>
    rcases parallel.head with short | ⟨first, tail, twinTail, equal, twinEqual, _⟩
    · exact .passed ((within_elements within _ text).mono short)
    obtain ⟨twinBound, rfl⟩ : ∃ more, twinBound = more + 1 := by
      rw [twinEqual, List.length_cons] at twinEnough
      exact ⟨twinBound - 1, by omega⟩
    have later (tree : Tree) (left : Units) : Within (skipBlanks left).length
        (afterItem 0x5D (fun more => (elements reader bound more).map
            fun result => (tree :: result.1, result.2))
          (fun left => .ok ([tree], left)) (skipBlanks left)) :=
      within_onMark (fun more => (within_elements within bound more).map (tree :: ·))
        (within_onMark (within_ok [tree]) within_unexpected) _
    rw [elements_succ, elements_succ]
    refine (items parallel.inner).bind
      (fun tree left => (later tree left).mono (length_skipBlanks_le left))
      fun tree left twinLeft read twinRead parallel => ?_
    refine alike_onMark parallel.inner (later tree left)
      (fun shorter twinShorter further => ?_) ?_
    · have inner := length_skipBlanks_le text
      have twinInner := length_skipBlanks_le twin
      exact (inductionHypothesis further (enough_after_item within read shorter (by omega))
        (enough_after_item widerWithin twinRead twinShorter (by omega))).map (tree :: ·)
    · exact alike_onMark parallel.inner
        (within_onMark (within_ok [tree]) within_unexpected _)
        (fun _ _ further => .ok [tree] further) (.stop parallel.inner)

theorem alike_members {bound twinBound : Nat} (parallel : Parallel unit rest other text twin)
    (enough : text.length ≤ bound) (twinEnough : twin.length ≤ twinBound) :
    Alike unit rest other (members reader bound text) (members wider twinBound twin) := by
  induction bound generalizing twinBound text twin with
  | zero =>
    rw [List.eq_nil_of_length_eq_zero (Nat.le_zero.mp enough)]
    exact .passed fun _ => Nat.zero_le _
  | succ bound inductionHypothesis =>
    rcases parallel.head with short | ⟨first, tail, twinTail, equal, twinEqual, _⟩
    · exact .passed ((within_members within _ text).mono short)
    obtain ⟨twinBound, rfl⟩ : ∃ more, twinBound = more + 1 := by
      rw [twinEqual, List.length_cons] at twinEnough
      exact ⟨twinBound - 1, by omega⟩
    have later (entry : Units × Tree) (left : Units) : Within (skipBlanks left).length
        (afterItem 0x7D (fun more => (members reader bound more).map
            fun result => (entry :: result.1, result.2))
          (fun left => .ok ([entry], left)) (skipBlanks left)) :=
      within_onMark (fun more => (within_members within bound more).map (entry :: ·))
        (within_onMark (within_ok [entry]) within_unexpected) _
    rw [members_succ, members_succ]
    refine (alike_memberKey parallel).bind
      (fun key start => (within start).bind fun tree left =>
        (later (key, tree) left).mono (length_skipBlanks_le left))
      fun key start twinStart keyRead twinKeyRead parallel => ?_
    refine (items parallel).bind
      (fun tree left => (later (key, tree) left).mono (length_skipBlanks_le left))
      fun tree left twinLeft read twinRead parallel => ?_
    refine alike_onMark parallel.inner (later (key, tree) left)
      (fun shorter twinShorter further => ?_) ?_
    · have shrinks := (memberKey_ok keyRead).length_lt
      have twinShrinks := (memberKey_ok twinKeyRead).length_lt
      exact (inductionHypothesis further (enough_after_item within read shorter (by omega))
        (enough_after_item widerWithin twinRead twinShorter (by omega))).map ((key, tree) :: ·)
    · exact alike_onMark parallel.inner
        (within_onMark (within_ok [(key, tree)]) within_unexpected _)
        (fun _ _ further => .ok [(key, tree)] further) (.stop parallel.inner)

theorem alike_array (parallel : Parallel unit rest other text twin) :
    Alike unit rest other (array reader text) (array wider twin) := by
  rw [array_eq, array_eq]
  refine alike_onMark parallel.inner ?_ (fun _ _ later => .ok _ later) ?_
  · exact within_onMark (within_ok _) (fun inner => (within_elements within _ inner).map _) _
  · exact (alike_elements within widerWithin items parallel.inner (Nat.le_succ _)
      (Nat.le_succ _)).map Tree.array

theorem alike_object (parallel : Parallel unit rest other text twin) :
    Alike unit rest other (object reader text) (object wider twin) := by
  rw [object_eq, object_eq]
  refine alike_onMark parallel.inner ?_ (fun _ _ later => .ok _ later) ?_
  · exact within_onMark (within_ok _) (fun inner => (within_members within _ inner).map _) _
  · exact (alike_members within widerWithin items parallel.inner (Nat.le_succ _)
      (Nat.le_succ _)).map Tree.object

end Lists

/-! ### Values -/

/-- Where neither a bracket nor a brace stands, the room does not matter. -/
theorem alike_value_of_flat {room more : Nat} {first : CodeUnit} {tail twinTail : Units}
    (noBrace : first ≠ 0x7B) (noBracket : first ≠ 0x5B)
    (later : Parallel unit rest other tail twinTail)
    (parallel : Parallel unit rest other (first :: tail) (first :: twinTail)) :
    Alike unit rest other (value room (first :: tail)) (value more (first :: twinTail)) := by
  rw [value.eq_def, value.eq_def]
  simp only [if_neg noBrace, if_neg noBracket]
  split_ifs
  · exact (alike_stringBody later).map Tree.string
  · exact (alike_number parallel).map fun numeral => Tree.number numeral.toNumber
  · exact alike_literal _ _ parallel
  · exact alike_literal _ _ parallel
  · exact alike_literal _ _ parallel
  · exact .stop parallel

/-- More room for arrays and objects does not show before a complaint about depth. -/
theorem alike_value {room more : Nat} (atMost : room ≤ more)
    (parallel : Parallel unit rest other text twin) :
    Alike unit rest other (value room text) (value more twin) := by
  induction room using Nat.strongRecOn generalizing more text twin with
  | ind room inductionHypothesis =>
    rcases parallel.head with short | ⟨first, tail, twinTail, rfl, rfl, later⟩
    · exact .passed ((within_value room text).mono short)
    -- A container is read with one level less on both sides.
    have below {inside wider : Nat} (less : inside < room) (atMost : inside ≤ wider)
        {text twin : Units} (parallel : Parallel unit rest other text twin) :
        Alike unit rest other (value inside text) (value wider twin) :=
      inductionHypothesis inside less atMost parallel
    by_cases brace : first = 0x7B
    · subst brace
      cases room with
      | zero =>
        rw [value_brace_zero]
        exact .passed nofun
      | succ inside =>
        obtain ⟨wider, rfl⟩ : ∃ wider, more = wider + 1 := ⟨more - 1, by omega⟩
        rw [value_brace, value_brace]
        exact alike_object (within_value inside) (within_value wider)
          (below (Nat.lt_succ_self inside) (Nat.le_of_succ_le_succ atMost)) later
    by_cases bracket : first = 0x5B
    · subst bracket
      cases room with
      | zero =>
        rw [value_bracket_zero]
        exact .passed nofun
      | succ inside =>
        obtain ⟨wider, rfl⟩ : ∃ wider, more = wider + 1 := ⟨more - 1, by omega⟩
        rw [value_bracket, value_bracket]
        exact alike_array (within_value inside) (within_value wider)
          (below (Nat.lt_succ_self inside) (Nat.le_of_succ_le_succ atMost)) later
    exact alike_value_of_flat brace bracket later parallel

/-! ### Whole texts -/

/-- No text of the grammar starts with what was read up to an unexpected unit and with this
unit. -/
theorem not_document_of_unexpected {front : Units} {unit : CodeUnit} {rest : Units}
    (read : document (front ++ unit :: rest) = .error ⟨.unexpected, unit :: rest⟩)
    (other : Units) (tree : Tree) : ¬ Grammar.Document tree (front ++ unit :: other) := by
  rintro ⟨before, spelled, closed⟩
  rename_i start after
  have twinRead : value (max maxDepth tree.depth) (skipBlanks (front ++ unit :: other)) =
      .ok (tree, after) := by
    rw [before.skipBlanks_start spelled.starts]
    exact (value_reads _).complete spelled (Nat.le_max_right _ _) closed.endsNumber_of_nil
  have texts : Parallel unit rest other (front ++ unit :: rest) (front ++ unit :: other) :=
    .before front
  have alike := alike_value (Nat.le_max_left maxDepth tree.depth) texts.inner
  rw [twinRead] at alike
  rcases bind_eq_error.mp read with early | ⟨⟨firstTree, left⟩, valueRead, late⟩
  · rw [early] at alike
    cases alike with
    | passed within => exact Nat.not_succ_le_self _ (within rfl)
  · have unread : skipBlanks left = unit :: rest := by
      dsimp only at late
      split at late
      · cases late
      · exact congrArg Stop.rest (Except.error.inj late)
    rw [valueRead] at alike
    cases alike with
    | passed within =>
      have inner := length_skipBlanks_le left
      rw [unread] at inner
      exact Nat.not_succ_le_self _ (Nat.le_trans inner within)
    | ok _ parallel =>
      -- The unit is left in both texts, but nothing is left of a whole text.
      have inner := parallel.inner
      rw [unread, closed.skipBlanks_nil] at inner
      rcases inner.head with short | ⟨_, _, _, _, nothing, _⟩
      · exact Nat.not_succ_le_self _ short
      · cases nothing

end EcmaCore.Json
