import LicenseStamp.Proofs.Header.Marker

/-! # Spellings of line ends

The end of a line is spelled by a line feed, by a carriage return, or by both. A text keeps its
lines when their ends are unified, whatever the spellings, unless a carriage return that stands
for itself comes before a line feed that stands for itself.
-/

namespace LicenseStamp.Text

/-- How the end of a line is spelled. -/
inductive LineEnd where
  | feed
  | pair
  | lone
  deriving Repr, DecidableEq

/-- The characters of a line end. -/
def LineEnd.text : LineEnd → Text
  | .feed => ['\n']
  | .pair => ['\r', '\n']
  | .lone => ['\r']

/-- The text of some lines with their ends and a last line without one. -/
def spell (ended : List (Text × LineEnd)) (last : Text) : Text :=
  ended.flatMap (fun line => line.1 ++ line.2.text) ++ last

/-- The same lines, all of them ended by line feeds. -/
def withFeeds (ended : List (Text × LineEnd)) : List (Text × LineEnd) :=
  ended.map fun line => (line.1, .feed)

/-- A text that holds no line end. -/
def IsLine (line : Text) : Prop := '\r' ∉ line ∧ '\n' ∉ line

/-- No line that a lone carriage return ends comes right before an empty line that a lone line
    feed ends: the two ends would make one. -/
def IsClear (ended : List (Text × LineEnd)) : Prop :=
  ended.IsChain fun first second => first.2 = .lone → second ≠ ([], .feed)

variable {ended : List (Text × LineEnd)} {line last rest : Text}

theorem IsClear.uncons {first : Text × LineEnd} (h : IsClear (first :: ended)) :
    (first.2 = .lone → ended.head? ≠ some ([], .feed)) ∧ IsClear ended := by
  cases h with
  | singleton => exact ⟨fun _ => nofun, .nil⟩
  | cons_cons hnext onward =>
      exact ⟨fun hlone hhead => hnext hlone (Option.some.inj hhead), onward⟩

theorem spell_cons (line : Text × LineEnd) (ended : List (Text × LineEnd)) (last : Text) :
    spell (line :: ended) last = line.1 ++ line.2.text ++ spell ended last := by
  simp only [spell, List.flatMap_cons, List.append_assoc]

theorem unifyNewlines_append_of_not_mem (h : '\r' ∉ line) (rest : Text) :
    unifyNewlines (line ++ rest) = line ++ unifyNewlines rest := by
  simp only [unifyNewlines, joinReturnPairs_append_of_not_mem h, replaceReturns, List.map_append]
  rw [← replaceReturns, replaceReturns_eq_self h]

theorem unifyNewlines_pair (rest : Text) :
    unifyNewlines ('\r' :: '\n' :: rest) = '\n' :: unifyNewlines rest := by
  simp [unifyNewlines, joinReturnPairs, replaceReturns]

theorem unifyNewlines_lone (h : rest.head? ≠ some '\n') :
    unifyNewlines ('\r' :: rest) = '\n' :: unifyNewlines rest := by
  have hjoin := joinReturnPairs_append ['\r'] h
  rw [List.singleton_append] at hjoin
  simp [unifyNewlines, hjoin, joinReturnPairs, replaceReturns]

/-- Only an empty line with a lone line feed starts a text with a line feed. -/
theorem head?_spell_ne (hlines : ∀ line ∈ ended, IsLine line.1) (hlast : IsLine last)
    (hfirst : ended.head? ≠ some ([], .feed)) : (spell ended last).head? ≠ some '\n' := by
  intro hhead
  cases ended with
  | nil => exact hlast.2 (List.mem_of_head? hhead)
  | cons line rest =>
      obtain ⟨text, ending⟩ := line
      rw [spell_cons] at hhead
      cases text with
      | cons c text =>
          obtain rfl : c = '\n' := by simpa using hhead
          exact (hlines _ List.mem_cons_self).2 List.mem_cons_self
      | nil =>
          cases ending with
          | feed => exact hfirst rfl
          | pair | lone => simp [LineEnd.text] at hhead

/-- Unified line ends are line feeds behind the same lines. -/
theorem unifyNewlines_spell (hlines : ∀ line ∈ ended, IsLine line.1) (hlast : IsLine last)
    (hclear : IsClear ended) : unifyNewlines (spell ended last) = spell (withFeeds ended) last := by
  induction ended with
  | nil => exact unifyNewlines_eq_self hlast.1
  | cons line rest ih =>
      obtain ⟨text, ending⟩ := line
      have hrest : ∀ other ∈ rest, IsLine other.1 := fun other h =>
        hlines other (List.mem_cons_of_mem _ h)
      obtain ⟨hnext, hclear⟩ := hclear.uncons
      have hunified := ih hrest hclear
      have hend : unifyNewlines (ending.text ++ spell rest last) =
          '\n' :: spell (withFeeds rest) last := by
        rw [← hunified]
        cases ending with
        | feed => exact @unifyNewlines_append_of_not_mem ['\n'] (by decide) _
        | pair => exact unifyNewlines_pair _
        | lone =>
            apply unifyNewlines_lone
            exact head?_spell_ne hrest hlast (hnext rfl)
      have hfeeds : withFeeds ((text, ending) :: rest) = (text, .feed) :: withFeeds rest := rfl
      rw [spell_cons, List.append_assoc,
        unifyNewlines_append_of_not_mem (hlines _ List.mem_cons_self).1, hend, hfeeds, spell_cons,
        List.append_assoc]
      rfl

theorem return_not_mem_spell_withFeeds (hlines : ∀ line ∈ ended, IsLine line.1)
    (hlast : IsLine last) (hclear : IsClear ended) : '\r' ∉ spell (withFeeds ended) last := by
  rw [← unifyNewlines_spell hlines hlast hclear]
  exact return_not_mem_unifyNewlines _

end LicenseStamp.Text
