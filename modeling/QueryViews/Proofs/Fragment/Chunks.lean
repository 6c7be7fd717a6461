import QueryViews.Proofs.Fragment.Markers

/-! A written text as its writer put it together, and what cutting makes of it. The parts are
told by the symbols they consist of, which are the characters and the values in their order, and by
their being spaced: no stretch of text is empty and none is followed by another one. -/

namespace QueryViews.Writing

/-- A character of the text, or a value that stands in it. -/
inductive Symbol where
  | char (c : Char)
  | value (held : Segment)

def Part.symbols : Part → List Symbol
  | .text stretch => stretch.toList.map .char
  | .value held => [.value held]

/-- No stretch is empty, and no stretch follows another one. -/
def Spaced : List Part → Prop
  | [] => True
  | .value _ :: rest => Spaced rest
  | [.text stretch] => stretch ≠ ""
  | .text stretch :: .value _ :: rest => stretch ≠ "" ∧ Spaced rest
  | .text _ :: .text _ :: _ => False

/-- The character is put at the front of the stretch that the parts begin with, if any. -/
def prepend (c : Char) : List Part → List Part
  | .text stretch :: rest => .text (String.ofList (c :: stretch.toList)) :: rest
  | parts => .text (String.singleton c) :: parts

/-- The parts with the longest stretches. -/
def regroup : List Symbol → List Part
  | [] => []
  | .char c :: rest => prepend c (regroup rest)
  | .value held :: rest => .value held :: regroup rest

theorem regroup_chars (rest : List Symbol) {chars : List Char} (some : chars ≠ [])
    (noText : ∀ stretch parts, regroup rest ≠ .text stretch :: parts) :
    regroup (chars.map .char ++ rest) = .text (String.ofList chars) :: regroup rest := by
  induction chars with
  | nil => exact absurd rfl some
  | cons c chars ih =>
    cases chars with
    | nil =>
      rw [List.map_singleton, List.singleton_append, regroup, prepend]
      · rfl
      · exact noText
    | cons d chars =>
      rw [List.map_cons, List.cons_append, regroup, ih (List.cons_ne_nil d chars), prepend,
        String.toList_ofList]

theorem regroup_symbols {parts : List Part} (spaced : Spaced parts) :
    regroup (parts.flatMap Part.symbols) = parts := by
  fun_induction Spaced parts with
  | case1 => rfl
  | case2 held rest ih => simp [Part.symbols, regroup, ih spaced]
  | case3 stretch =>
    have := regroup_chars [] (fun none => spaced (String.toList_eq_nil_iff.1 none))
      (by simp [regroup])
    simpa [Part.symbols, regroup] using this
  | case4 stretch held rest ih =>
    have := regroup_chars (.value held :: rest.flatMap Part.symbols)
      (fun none => spaced.1 (String.toList_eq_nil_iff.1 none)) (by simp [regroup])
    simpa [Part.symbols, regroup, ih spaced.2] using this
  | case5 => exact spaced.elim

/-- Spaced parts are known from their symbols. -/
theorem eq_of_symbols_eq {parts others : List Part} (spaced : Spaced parts)
    (spacedOthers : Spaced others)
    (symbols : parts.flatMap Part.symbols = others.flatMap Part.symbols) : parts = others := by
  rw [← regroup_symbols spaced, symbols, regroup_symbols spacedOthers]

theorem symbols_pendingText (pending : List Char) :
    (pendingText pending).flatMap Part.symbols = pending.reverse.map .char := by
  cases pending <;> simp [pendingText, Part.symbols]

theorem spaced_pendingText (pending : List Char) : Spaced (pendingText pending) := by
  cases pending <;> simp [pendingText, Spaced]

theorem spaced_before_value {rest : List Part} (spaced : Spaced rest) (pending : List Char)
    (held : Segment) : Spaced (pendingText pending ++ .value held :: rest) := by
  cases pending <;> simp [pendingText, Spaced, spaced]

/-- This holds of every text, whatever stands in it. -/
theorem spaced_partsAfter (w : Writing) (pending text : List Char) :
    Spaced (w.partsAfter pending text) := by
  fun_induction partsAfter w pending text with
  | case1 pending => exact spaced_pendingText pending
  | case2 pending c rest passed ih => exact ih
  | case3 pending c rest m after found shorter held ours ih =>
    exact spaced_before_value ih pending held
  | case4 pending c rest m after found shorter foreign ih => exact ih

/-- What a text is put together of: text without the brace of markers, markers of the writing
for one of its values, and markers of other writers. -/
inductive Chunk (w : Writing) where
  | text (stretch : String) (plain : markerBrace ∉ stretch.toList)
  | own (index : Fin w.values.length)
  | foreign (writer index : Nat) (other : writer ≠ w.writer)

namespace Chunk

variable {w : Writing}

def written : Chunk w → String
  | text stretch _ => stretch
  | own index => markerText w.writer index
  | foreign writer index _ => markerText writer index

/-- A marker of another writer counts as text. -/
def symbols : Chunk w → List Symbol
  | text stretch _ => stretch.toList.map .char
  | own index => [.value (w.values.get index)]
  | foreign writer index _ => (markerText writer index).toList.map .char

theorem symbols_partsAfter (fits : w.Fits) (chunks : List (Chunk w)) (pending : List Char) :
    (w.partsAfter pending (chunks.flatMap (·.written.toList))).flatMap Part.symbols =
      pending.reverse.map .char ++ chunks.flatMap symbols := by
  induction chunks generalizing pending with
  | nil => simp [partsAfter_nil, symbols_pendingText]
  | cons chunk rest ih =>
    rw [List.flatMap_cons, List.flatMap_cons]
    cases chunk with
    | text stretch plain =>
      rw [written, symbols, partsAfter_plain plain, ih, List.reverse_append, List.reverse_reverse,
        List.map_append, List.append_assoc]
    | own index =>
      rw [written, symbols, Marker.toList_markerText, partsAfter_own fits, List.flatMap_append,
        List.flatMap_cons, ih, symbols_pendingText]
      rfl
    | foreign writer index other =>
      rw [written, symbols, Marker.toList_markerText, partsAfter_foreign other, ih,
        List.reverse_append, List.reverse_reverse, List.map_append, List.append_assoc]

end Chunk

theorem toList_join_written {w : Writing} (chunks : List (Chunk w)) :
    (String.join (chunks.map Chunk.written)).toList = chunks.flatMap (·.written.toList) := by
  rw [String.toList_join, List.flatMap_map]

/-- The text of symbols: characters as they are, values as they are rendered. -/
def spell (style : Style) : List Symbol → Render String
  | [] => return ""
  | .char c :: rest => return String.singleton c ++ (← spell style rest)
  | .value held :: rest => do
    let first ← held.render style
    return first.toString ++ (← spell style rest)

theorem spell_append (style : Style) (front back : List Symbol) :
    spell style (front ++ back) = do
      let first ← spell style front
      let second ← spell style back
      return first ++ second := by
  induction front with
  | nil => simp only [List.nil_append, spell, pure_bind, String.empty_append, bind_pure]
  | cons symbol front ih =>
    cases symbol <;>
      simp only [List.cons_append, spell, ih, bind_assoc, pure_bind, String.append_assoc]

theorem spell_chars (style : Style) (chars : List Char) :
    spell style (chars.map .char) = return String.ofList chars := by
  induction chars with
  | nil => rfl
  | cons c chars ih =>
    rw [List.map_cons, spell, ih, pure_bind, ← String.ofList_cons]

theorem spell_parts (style : Style) (parts : List Part) :
    spell style (parts.flatMap Part.symbols) =
      SqlText.toString <$> Fragment.render style (parts.map Part.toSegment) := by
  induction parts with
  | nil => rfl
  | cons part parts ih =>
    rw [List.flatMap_cons, spell_append, ih]
    cases part with
    | text stretch =>
      simp [Part.symbols, spell_chars, Part.toSegment, Fragment.render, Segment.render,
        SqlText.toString, SqlPiece.written, String.join_cons]
    | value held => simp [Part.symbols, spell, Part.toSegment, Fragment.render]

/-- The text of a chunk with the value of its marker in the marker's place. -/
def Chunk.render {w : Writing} (style : Style) : Chunk w → Render String
  | .own index => return (← (w.values.get index).render style).toString
  | .text stretch _ => return stretch
  | .foreign writer index _ => return markerText writer index

theorem spell_chunks {w : Writing} (style : Style) (chunks : List (Chunk w)) :
    spell style (chunks.flatMap Chunk.symbols) =
      String.join <$> chunks.mapM (Chunk.render style) := by
  induction chunks with
  | nil => rfl
  | cons chunk chunks ih =>
    rw [List.flatMap_cons, spell_append, ih, List.mapM_cons]
    cases chunk <;>
      simp [Chunk.symbols, Chunk.render, spell_chars, spell, String.join_cons]

/-- Values held one after the other, and the markers that stand for them. -/
def holdAll (w : Writing) : List Segment → List String × Writing
  | [] => ([], w)
  | value :: rest =>
    let (marker, w) := w.hold value
    let (markers, w) := w.holdAll rest
    (marker :: markers, w)

theorem holdAll_eq (w : Writing) (values : List Segment) :
    w.holdAll values =
      ((List.range' w.values.length values.length).map (markerText w.writer),
        { w with values := w.values ++ values }) := by
  induction values generalizing w with
  | nil => simp [holdAll]
  | cons value rest ih => simp [holdAll, hold, ih, List.range'_succ]

theorem holdAll_mint (supply : Supply) (values : List Segment) :
    (mint.run supply).1.holdAll values =
      ((List.range values.length).map (markerText supply.writers), ⟨supply.writers, values⟩) := by
  rw [holdAll_eq, List.range_eq_range']
  rfl

theorem symbols_parts {w : Writing} (fits : w.Fits) (chunks : List (Chunk w)) :
    (w.parts (String.join (chunks.map Chunk.written))).flatMap Part.symbols =
      chunks.flatMap Chunk.symbols := by
  rw [parts, toList_join_written, Chunk.symbols_partsAfter fits]
  rfl

/-- A text of markers and of text without their brace is cut exactly at the writer's own
markers. Its rendering is the text with the renderings of the values in their place. -/
theorem parts_join_written {supply : Supply} {values : List Segment} {markers : List String}
    {w : Writing} (called : (mint.run supply).1.holdAll values = (markers, w))
    (writer : supply.writers < Text.registerBound) (count : values.length ≤ Text.registerBound)
    (chunks : List (Chunk w)) :
    (w.values = values ∧ markers = List.ofFn fun index => (Chunk.own (w := w) index).written) ∧
    (∀ parts, w.parts (String.join (chunks.map Chunk.written)) = parts ↔
      Spaced parts ∧ parts.flatMap Part.symbols = chunks.flatMap Chunk.symbols) ∧
    ∀ style, SqlText.toString <$>
        Fragment.render style (w.toFragment (String.join (chunks.map Chunk.written))) =
      String.join <$> chunks.mapM (Chunk.render style) := by
  rw [holdAll_mint, Prod.mk.injEq] at called
  obtain ⟨handedOut, rfl⟩ := called
  have fits : Fits ⟨supply.writers, values⟩ := ⟨writer, count⟩
  have same := symbols_parts fits chunks
  refine ⟨⟨rfl, ?_⟩, fun parts => ⟨?_, fun ⟨spaced, told⟩ => ?_⟩, fun style => ?_⟩
  · rw [← handedOut]
    exact List.ext_getElem (by simp) fun index _ _ => by simp [Chunk.written]
  · rintro rfl
    exact ⟨spaced_partsAfter _ _ _, same⟩
  · exact eq_of_symbols_eq (spaced_partsAfter _ _ _) spaced (same.trans told.symm)
  · rw [toFragment, ← spell_parts, same, spell_chunks]

/-- Markers may stand side by side and more than once, with one of another writer between. -/
theorem parts_of_adjoining_markers :
    Writing.parts ⟨2, [.verbatim "a", .param .null]⟩
        "\x012:0\x01\x017:0\x01\x012:1\x01 + \x012:0\x01\x012:0\x01" =
      [.value (.verbatim "a"), .text "\x017:0\x01", .value (.param .null), .text " + ",
        .value (.verbatim "a"), .value (.verbatim "a")] := by
  have called : (mint.run ⟨0, 0, 2⟩).1.holdAll [.verbatim "a", .param .null] =
    (["\x012:0\x01", "\x012:1\x01"], ⟨2, [.verbatim "a", .param .null]⟩) := rfl
  have cut := (parts_join_written called (by decide) (by decide)
    [.own ⟨0, by decide⟩, .foreign 7 0 (by decide), .own ⟨1, by decide⟩,
      .text " + " (by decide), .own ⟨0, by decide⟩, .own ⟨0, by decide⟩]).2.1
  exact (cut _).2 ⟨by simp [Spaced], rfl⟩

end QueryViews.Writing
