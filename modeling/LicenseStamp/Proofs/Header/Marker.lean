import LicenseStamp.Header.Stamp
import LicenseStamp.Proofs.Text.Utf8
import LicenseStamp.Tree.Access
import Mathlib.Data.List.Infix

/-! # The marker in stamped files

A stamped text carries the license marker, whatever its body is, and still carries it when
its bytes are read again: trimming stops at the header, and unifying line endings leaves
the marker alone.
-/

namespace LicenseStamp

namespace Text

/-- Trimming leaves all that stands before a character that is no blank. -/
theorem prefix_trimEnd {c : Char} (hc : isBlank c = false) (front rest : Text) :
    front ++ [c] <+: trimEnd (front ++ c :: rest) := by
  induction front with
  | nil =>
      simp only [List.nil_append, trimEnd]
      cases trimEnd rest with
      | nil => simp [hc]
      | cons => simp
  | cons d front ih =>
      simp only [List.cons_append, trimEnd]
      cases hkept : trimEnd (front ++ c :: rest) with
      | nil => simp [hkept] at ih
      | cons first kept =>
          rw [hkept] at ih
          exact (List.prefix_cons_inj d).2 ih

/-- Pairs of carriage return and line feed do not reach over a place where no line feed
    follows. -/
theorem joinReturnPairs_append (first : Text) {second : Text} (h : second.head? ≠ some '\n') :
    joinReturnPairs (first ++ second) = joinReturnPairs first ++ joinReturnPairs second := by
  fun_induction joinReturnPairs first with
  | case1 => rfl
  | case2 rest ih => simp only [List.cons_append, joinReturnPairs, ih]
  | case3 c rest hpair ih =>
      have hpair' : ∀ more, c = '\r' → rest ++ second = '\n' :: more → False := by
        intro more hc hmore
        cases rest with
        | nil =>
            rw [List.nil_append] at hmore
            exact h (by rw [hmore, List.head?_cons])
        | cons next rest =>
            obtain ⟨rfl, -⟩ := List.cons.inj hmore
            exact hpair rest hc rfl
      rw [List.cons_append, joinReturnPairs.eq_3 c _ hpair', ih, List.cons_append]

theorem joinReturnPairs_append_of_not_mem {first : Text} (h : '\r' ∉ first) (second : Text) :
    joinReturnPairs (first ++ second) = first ++ joinReturnPairs second := by
  induction first with
  | nil => rfl
  | cons c rest ih =>
      obtain ⟨hc, hrest⟩ := not_or.1 (mt List.mem_cons.2 h)
      have hpair : ∀ more, c = '\r' → rest ++ second = '\n' :: more → False :=
        fun _ same _ => hc same.symm
      rw [List.cons_append, joinReturnPairs.eq_3 c _ hpair, ih hrest, List.cons_append]

/-- A piece of text without line ends is still there when line ends are unified. -/
theorem infix_unifyNewlines {needle text : Text} (hreturn : '\r' ∉ needle) (hfeed : '\n' ∉ needle)
    (h : needle <:+: text) : needle <:+: unifyNewlines text := by
  obtain ⟨front, back, rfl⟩ := h
  have hhead : needle = [] ∨ (needle ++ back).head? ≠ some '\n' := by
    cases needle with
    | nil => exact .inl rfl
    | cons c rest =>
        refine .inr fun same => hfeed ?_
        obtain rfl := Option.some.inj same
        exact List.mem_cons_self
  rcases hhead with rfl | hhead
  · exact List.nil_infix
  · refine ⟨replaceReturns (joinReturnPairs front), replaceReturns (joinReturnPairs back), ?_⟩
    rw [unifyNewlines, List.append_assoc front, joinReturnPairs_append front hhead,
      joinReturnPairs_append_of_not_mem hreturn]
    simp only [replaceReturns, List.map_append]
    rw [← replaceReturns, ← replaceReturns, ← replaceReturns, replaceReturns_eq_self hreturn,
      List.append_assoc]

end Text

namespace HeaderStyle

theorem return_not_mem_marker : '\r' ∉ marker := by decide +kernel

theorem feed_not_mem_marker : '\n' ∉ marker := by decide +kernel

theorem marker_ne_nil : marker ≠ [] := by decide +kernel

theorem starred_of_ne_nil {line : Text} (h : line ≠ []) :
    starred line = " * ".toList ++ line := by
  have hempty : line.isEmpty = false := by simpa using h
  rw [starred, hempty, if_neg Bool.false_ne_true]

theorem marker_infix_line {line : Text} {lines : List Text} (hmarker : marker <:+: line)
    (hline : line ∈ lines) : marker <:+: lines.flatMap (· ++ ['\n']) := by
  have hended : line ++ ['\n'] ∈ lines.map (· ++ ['\n']) := List.mem_map_of_mem hline
  exact (hmarker.trans (List.prefix_append _ _).isInfix).trans (List.infix_of_mem_flatten hended)

/-- The marker stands in the header, and what stands before the last line feed is no blank. -/
theorem exists_header_eq (style : HeaderStyle) :
    ∃ front c, style.header = front ++ c :: ['\n'] ∧ Text.isBlank c = false ∧
      marker <:+: front ++ [c] := by
  have cut : ∀ (lines : List Text) (init : Text) (c : Char),
      (lines ++ [init ++ [c]]).flatMap (· ++ ['\n']) =
        (lines.flatMap (· ++ ['\n']) ++ init) ++ c :: ['\n'] := by
    intro lines init c
    simp
  have above : ∀ {lines : List Text} (init : Text) (c : Char),
      marker <:+: lines.flatMap (· ++ ['\n']) →
        marker <:+: lines.flatMap (· ++ ['\n']) ++ init ++ [c] := by
    intro lines init c h
    rw [List.append_assoc]
    exact h.trans (List.prefix_append _ _).isInfix
  have hnotice : marker ++ " (the \"License\");".toList ∈ notice :=
    List.mem_cons_of_mem _ (List.mem_cons_of_mem _ List.mem_cons_self)
  cases style with
  | html =>
      have hlast : "-->".toList = ['-', '-'] ++ ['>'] := by decide
      refine ⟨_, '>', ?_, by decide, above ['-', '-'] '>'
        (marker_infix_line (List.prefix_append marker _).isInfix
          (List.mem_cons_of_mem "<!--".toList hnotice))⟩
      rw [header, headerLines, hlast, cut]
  | code =>
      have hlast : " */".toList = [' ', '*'] ++ ['/'] := by decide
      have hstarred : marker <:+: starred (marker ++ " (the \"License\");".toList) := by
        rw [starred_of_ne_nil (List.append_ne_nil_of_left_ne_nil marker_ne_nil _),
          ← List.append_assoc]
        exact List.infix_append _ _ _
      refine ⟨_, '/', ?_, by decide, above [' ', '*'] '/'
        (marker_infix_line hstarred
          (List.mem_cons_of_mem "/*".toList (List.mem_map_of_mem hnotice)))⟩
      rw [header, headerLines, hlast, cut]

end HeaderStyle

/-- Content that is read as a text with the marker. -/
def Bytes.IsMarked (content : Bytes) : Prop :=
  ∃ text, content.readText = .ok text ∧ hasMarker text = true

theorem readText_encode (text : Text) :
    Bytes.readText (Utf8.encode text) = .ok (Text.unifyNewlines text) := by
  rw [Bytes.readText, Utf8.decode?_encode]

/-- A stamped file carries the marker when it is read. -/
theorem isMarked_stamp (style : HeaderStyle) (text : Text) :
    Bytes.IsMarked (Utf8.encode (style.stamp text).content) := by
  refine ⟨_, readText_encode _, ?_⟩
  obtain ⟨front, c, hheader, hc, hmarker⟩ := HeaderStyle.exists_header_eq style
  rw [hasMarker, Text.contains_iff]
  refine Text.infix_unifyNewlines HeaderStyle.return_not_mem_marker
    HeaderStyle.feed_not_mem_marker (hmarker.trans ?_)
  have hfront := Text.prefix_trimEnd hc front ('\n' :: '\n' :: Obsolete.strip text)
  simp only [HeaderStyle.stamp, HeaderStyle.compose, hheader, List.append_assoc, List.cons_append,
    List.nil_append]
  exact (hfront.trans (List.prefix_append _ _)).isInfix

end LicenseStamp
