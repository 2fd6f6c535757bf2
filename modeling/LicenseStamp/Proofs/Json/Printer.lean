import LicenseStamp.Json.Printer
import LicenseStamp.Proofs.Json.Reader

/-! # Printing JSON

What is printed is spelled by the grammar, at every depth: escapes stand for the characters that
they escape and line breaks are gaps. So it is read back as the value that was printed.
-/

namespace LicenseStamp.Json

variable {value : Json}

/-- A value whose numbers are numbers and whose objects have one member of a name. -/
inductive WellFormed : Json → Prop where
  | null : WellFormed .null
  | bool (value : Bool) : WellFormed (.bool value)
  | number {lexeme : Text} (hnumber : IsNumber lexeme) : WellFormed (.number lexeme)
  | string (text : Text) : WellFormed (.string text)
  | array {items : List Json} (hitems : ∀ item ∈ items, WellFormed item) : WellFormed (.array items)
  | object {members : List (Text × Json)} (hnodup : (members.map Prod.fst).Nodup)
      (hmembers : ∀ member ∈ members, WellFormed member.2) : WellFormed (.object members)

/-! ## Quoted texts -/

theorem hexValue4?_control : ∀ n < 0x20,
    hexValue4? '0' '0' (hexDigit (n / 16)) (hexDigit (n % 16)) = some n := by
  decide

theorem spellsChar_escapeChar (c : Char) : SpellsChar c (escapeChar c) := by
  unfold escapeChar
  iterate 7
    refine iteInduction (fun same => ?_) fun hne => ?_
    · subst same
      exact .short rfl
  refine iteInduction (fun hcontrol => ?_) fun hcontrol => ?_
  · refine .code (hexValue4?_control _ hcontrol) ?_
    rw [single?, if_neg (by omega), Char.ofNat_toNat]
  · exact .plain (Nat.le_of_not_lt hcontrol) ‹_› ‹_›

theorem spellsQuoted_escaped (text : Text) :
    SpellsQuoted text (text.flatMap escapeChar ++ ['"']) := by
  induction text with
  | nil => exact .close
  | cons c rest ih =>
      rw [List.flatMap_cons, List.append_assoc]
      exact .char (spellsChar_escapeChar c) ih

/-! ## Values -/

theorem isGap_nil : IsGap [] := fun _ h => nomatch h

theorem isGap_newline (depth : Nat) : IsGap (newline depth) := by
  intro c hc
  rcases List.mem_cons.1 hc with rfl | hblank
  · decide
  · rw [(List.mem_replicate.1 hblank).2]
    decide

theorem spellsItems_print {depth : Nat} {item : Json} {items : List Json}
    (h : ∀ later ∈ item :: items, Spells later (print (depth + 1) later)) :
    SpellsItems (item :: items)
      (newline (depth + 1) ++ print (depth + 1) item ++ printItems depth items) := by
  have hitem := h item List.mem_cons_self
  induction items generalizing item with
  | nil =>
      rw [printItems, ← List.append_assoc]
      exact .last (.mk (isGap_newline _) hitem (isGap_newline _))
  | cons next rest ih =>
      have hrest := ih (fun later hlater => h later (List.mem_cons_of_mem _ hlater))
        (h next (List.mem_cons_of_mem _ List.mem_cons_self))
      have hmore := SpellsItems.more (.mk (isGap_newline (depth + 1)) hitem isGap_nil) hrest
      simpa [printItems] using hmore

theorem spellsMember_print {depth : Nat} {after : Text} {member : Text × Json}
    (h : Spells member.2 (print (depth + 1) member.2)) (hafter : IsGap after) :
    SpellsMember member
      (newline (depth + 1) ++ quote member.1 ++ ':' :: ' ' :: print (depth + 1) member.2 ++ after) := by
  have hblank : IsGap [' '] := by
    intro c hc
    rw [List.mem_singleton.1 hc]
    decide
  have hmember := SpellsMember.mk (isGap_newline (depth + 1)) (spellsQuoted_escaped member.1) isGap_nil
    (.mk hblank h hafter)
  simpa [quote] using hmember

theorem spellsMembers_print {depth : Nat} {member : Text × Json} {members : List (Text × Json)}
    (h : ∀ later ∈ member :: members, Spells later.2 (print (depth + 1) later.2)) :
    SpellsMembers (member :: members)
      (newline (depth + 1) ++ quote member.1 ++ ':' :: ' ' :: print (depth + 1) member.2
        ++ printMembers depth members) := by
  have hmember := h member List.mem_cons_self
  induction members generalizing member with
  | nil =>
      rw [printMembers, ← List.append_assoc]
      exact .last (spellsMember_print hmember (isGap_newline _))
  | cons next rest ih =>
      have hrest := ih (fun later hlater => h later (List.mem_cons_of_mem _ hlater))
        (h next (List.mem_cons_of_mem _ List.mem_cons_self))
      have hmore := SpellsMembers.more (spellsMember_print hmember isGap_nil) hrest
      simpa [printMembers] using hmore

/-- What is printed at a depth spells the value. -/
theorem WellFormed.spells_print (h : WellFormed value) (depth : Nat) :
    Spells value (print depth value) := by
  induction h generalizing depth with
  | null => exact .null
  | bool value =>
      cases value with
      | false => exact .no
      | true => exact .yes
  | number hnumber => exact .number hnumber
  | string text => exact .string (spellsQuoted_escaped text)
  | @array items _ ih =>
      cases items with
      | nil => exact .noItems isGap_nil
      | cons item rest => exact .array (spellsItems_print fun later hlater => ih later hlater _)
  | @object members _ _ ih =>
      cases members with
      | nil => exact .noMembers isGap_nil
      | cons member rest => exact .object (spellsMembers_print fun later hlater => ih later hlater _)

/-- A printed document spells its value. -/
theorem WellFormed.spellsElement_pretty (h : WellFormed value) :
    SpellsElement value (pretty value) := by
  have hspells := SpellsElement.mk isGap_nil (h.spells_print 0) isGap_nil
  simpa [pretty] using hspells

/-- A printed document is read back as its value. -/
theorem WellFormed.read?_pretty (h : WellFormed value) : read? (pretty value) = some value :=
  read?_of_spells h.spellsElement_pretty

end LicenseStamp.Json
