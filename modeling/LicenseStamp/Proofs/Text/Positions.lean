import LicenseStamp.Proofs.Text.LetterCase
import LicenseStamp.Proofs.Text.Rejoining
import Mathlib.Data.List.GetD

/-! # Lines by their positions

Where a text is cut into lines depends on its line ends alone. Texts that are read off the same
positions and have their line ends at the same ones are cut at the same positions, and when some of the
first lines are dropped and the others put together again, the same positions are left of each text.
Texts that differ in letter case are such texts.
-/

namespace LicenseStamp.Text

variable {ι α : Type} {read : ι → α → Char} {items rest : List α} {pieces : List (List α)}
  {item next : α} {text other : Text}

/-- Ways to read items as characters that see the same line ends. -/
def AgreeOnEnds (read : ι → α → Char) : Prop :=
  ∀ item j k, (read j item = '\n' → read k item = '\n') ∧ (read j item = '\r' → read k item = '\r')

/-- A cut of some items into pieces that are the lines of the items, in each way to read them. -/
structure IsCut (read : ι → α → Char) (items : List α) (pieces : List (List α)) : Prop where
  lines_eq : ∀ k, lines (items.map (read k)) = pieces.map (List.map (read k))
  /-- The last lines are put together from items that were there before. -/
  exists_kept : ∀ n, ∃ kept : List α, kept.Sublist items ∧
    ∀ k, unlines ((pieces.drop n).map (List.map (read k))) = kept.map (read k)

/-- Puts an item before the first of some pieces, or makes it a piece of its own. -/
def consPiece (item : α) : List (List α) → List (List α)
  | [] => [[item]]
  | piece :: more => (item :: piece) :: more

theorem map_consPiece (k : ι) : (consPiece item pieces).map (List.map (read k)) =
    consLine (read k item) (pieces.map (List.map (read k))) := by
  cases pieces <;> rfl

theorem drop_succ_consPiece (n : Nat) : (consPiece item pieces).drop (n + 1) = pieces.drop (n + 1) := by
  cases pieces with
  | nil => simp [consPiece]
  | cons piece more => rfl

namespace IsCut

theorem nil (read : ι → α → Char) : IsCut read [] [] :=
  ⟨fun _ => rfl, fun n => ⟨[], .refl _, fun _ => by rw [List.drop_nil]; rfl⟩⟩

theorem feed (h : IsCut read rest pieces) (hfeed : ∀ k, read k item = '\n') :
    IsCut read (item :: rest) ([] :: pieces) := by
  refine ⟨fun k => ?_, fun n => ?_⟩
  · rw [List.map_cons, hfeed k, lines, h.lines_eq k]
    rfl
  · cases n with
    | succ n =>
        obtain ⟨kept, hsublist, hkept⟩ := h.exists_kept n
        exact ⟨kept, hsublist.cons item, hkept⟩
    | zero =>
        cases pieces with
        | nil => exact ⟨[], List.nil_sublist _, fun _ => rfl⟩
        | cons piece more =>
            obtain ⟨kept, hsublist, hkept⟩ := h.exists_kept 0
            refine ⟨item :: kept, hsublist.cons_cons item, fun k => ?_⟩
            rw [List.map_cons, hfeed k, ← hkept k]
            exact unlines_cons [] (List.cons_ne_nil _ _)

/-- A carriage return before a line feed belongs to the end of the piece. -/
theorem pair (h : IsCut read rest pieces) (hreturn : ∀ k, read k item = '\r')
    (hfeed : ∀ k, read k next = '\n') : IsCut read (item :: next :: rest) ([] :: pieces) := by
  refine ⟨fun k => ?_, fun n => ?_⟩
  · rw [List.map_cons, List.map_cons, hreturn k, hfeed k, lines, h.lines_eq k]
    rfl
  · obtain ⟨kept, hsublist, hkept⟩ := (h.feed hfeed).exists_kept n
    exact ⟨kept, hsublist.cons item, hkept⟩

theorem char (h : IsCut read rest pieces) (hfeed : ∀ k, read k item ≠ '\n')
    (hpair : ∀ k, read k item = '\r' → (rest.map (read k)).head? ≠ some '\n') :
    IsCut read (item :: rest) (consPiece item pieces) := by
  refine ⟨fun k => ?_, fun n => ?_⟩
  · rw [List.map_cons, map_consPiece, ← h.lines_eq k]
    apply lines.eq_4 _ _ (hfeed k)
    intro more hreturn hrest
    apply hpair k hreturn
    rw [hrest, List.head?_cons]
  · cases n with
    | succ n =>
        obtain ⟨kept, hsublist, hkept⟩ := h.exists_kept (n + 1)
        rw [drop_succ_consPiece]
        exact ⟨kept, hsublist.cons item, hkept⟩
    | zero =>
        obtain ⟨kept, hsublist, hkept⟩ := h.exists_kept 0
        refine ⟨item :: kept, hsublist.cons_cons item, fun k => ?_⟩
        rw [List.drop_zero, map_consPiece, unlines_consLine, List.map_cons, ← hkept k, List.drop_zero]

end IsCut

/-- Items have one cut into lines for all ways to read them that agree on the line ends. -/
theorem exists_isCut [hways : Nonempty ι] (h : AgreeOnEnds read) (items : List α) :
    ∃ pieces, IsCut read items pieces := by
  obtain ⟨way⟩ := hways
  have hfeed {item : α} (hitem : read way item = '\n') (k : ι) : read k item = '\n' :=
    (h item way k).1 hitem
  have hreturn {item : α} (hitem : read way item = '\r') (k : ι) : read k item = '\r' :=
    (h item way k).2 hitem
  have hother {item : α} (hitem : read way item ≠ '\n') (k : ι) : read k item ≠ '\n' :=
    fun hk => hitem ((h item k way).1 hk)
  -- a carriage return is looked at together with the item behind it
  induction items using List.twoStepInduction with
  | nil => exact ⟨[], .nil read⟩
  | singleton item =>
      by_cases hend : read way item = '\n'
      · exact ⟨_, (IsCut.nil read).feed (hfeed hend)⟩
      · exact ⟨_, (IsCut.nil read).char (hother hend) fun _ _ => (Option.some_ne_none _).symm⟩
  | cons_cons item next more ih ihnext =>
      obtain ⟨pieces, hcut⟩ := ihnext next
      by_cases hend : read way item = '\n'
      · exact ⟨_, hcut.feed (hfeed hend)⟩
      by_cases hnext : read way item = '\r' ∧ read way next = '\n'
      · obtain ⟨pieces, hcut⟩ := ih
        exact ⟨_, hcut.pair (hreturn hnext.1) (hfeed hnext.2)⟩
      · refine ⟨_, hcut.char (hother hend) fun k hitem hhead => hnext ⟨?_, ?_⟩⟩
        · exact (h item k way).2 hitem
        · exact (h next k way).1 (Option.some.inj hhead)

/-! ## Texts in different letter case -/

theorem map_getD_range (text : Text) (fill : Char) :
    (List.range text.length).map (text.getD · fill) = text := by
  apply List.ext_getElem
  · rw [List.length_map, List.length_range]
  · intro i _ hin
    rw [List.getElem_map, List.getElem_range, List.getD_eq_getElem _ _ hin]

namespace Recased

theorem refl (text : Text) : Recased text text := List.forall₂_same.2 fun _ _ => .inl rfl

theorem sameLetter_getD (h : Recased text other) (i : Nat) :
    SameLetter (text.getD i ' ') (other.getD i ' ') := by
  induction h generalizing i with
  | nil => exact .inl rfl
  | cons hchar hrest ih =>
      cases i with
      | zero => exact hchar
      | succ i => exact ih i

theorem map_getD (h : Recased text other) (positions : List Nat) :
    Recased (positions.map (text.getD · ' ')) (positions.map (other.getD · ' ')) := by
  rw [Recased, List.forall₂_map_left_iff, List.forall₂_map_right_iff, List.forall₂_same]
  exact fun i _ => h.sameLetter_getD i

theorem exists_isCut (h : Recased text other) :
    ∃ pieces, IsCut (fun (recased : Bool) i => (cond recased other text).getD i ' ')
      (List.range text.length) pieces := by
  apply Text.exists_isCut
  intro i j k
  have hsame := h.sameLetter_getD i
  have hfeed : other.getD i ' ' = '\n' ↔ text.getD i ' ' = '\n' := hsame.eq_iff (by decide)
  have hreturn : other.getD i ' ' = '\r' ↔ text.getD i ' ' = '\r' := hsame.eq_iff (by decide)
  cases j <;> cases k
  · exact ⟨id, id⟩
  · exact ⟨hfeed.2, hreturn.2⟩
  · exact ⟨hfeed.1, hreturn.1⟩
  · exact ⟨id, id⟩

/-- The lines are the same ones in another case, and the last of them are put together from the same
    positions. -/
theorem lines (h : Recased text other) :
    List.Forall₂ Recased (lines text) (lines other) ∧
      ∀ n, ∃ kept : List Nat, kept.Sublist (List.range text.length) ∧
        unlines ((Text.lines text).drop n) = kept.map (text.getD · ' ') ∧
        unlines ((Text.lines other).drop n) = kept.map (other.getD · ' ') := by
  obtain ⟨pieces, hlines, hkept⟩ := h.exists_isCut
  have htext := hlines false
  have hother := hlines true
  simp only [cond_true, cond_false, map_getD_range] at htext hother
  rw [List.Forall₂.length_eq h, map_getD_range] at hother
  rw [htext, hother]
  refine ⟨?_, fun n => ?_⟩
  · rw [List.forall₂_map_left_iff, List.forall₂_map_right_iff, List.forall₂_same]
    exact fun piece _ => h.map_getD piece
  · obtain ⟨kept, hsublist, hkept⟩ := hkept n
    refine ⟨kept, hsublist, ?_, ?_⟩
    · rw [← List.map_drop]
      exact hkept false
    · rw [← List.map_drop]
      exact hkept true

end Recased

end LicenseStamp.Text
