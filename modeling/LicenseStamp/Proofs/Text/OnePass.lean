import LicenseStamp.Proofs.Text.LineEnds
import LicenseStamp.Proofs.Tree.Collected

/-! # Line ends unified in one pass

Reading decodes the bytes of a file and then replaces line ends in two passes over the text. The bytes
of the result are found in a single pass over the bytes of the file, because no byte of a longer
character looks like a carriage return or a line feed.
-/

namespace LicenseStamp

/-- One pass over some bytes: a carriage return becomes a line feed, together with a line feed right
    behind it. Every other byte is copied. -/
def Bytes.unifyNewlines : Bytes → Bytes
  | [] => []
  | 0x0D :: 0x0A :: rest => 0x0A :: unifyNewlines rest
  | 0x0D :: rest => 0x0A :: unifyNewlines rest
  | byte :: rest => byte :: unifyNewlines rest

namespace Utf8

variable {bytes : Bytes} {text : Text}

theorem encodeChar_eq (c : Char) : encodeChar c = String.utf8EncodeChar c := by
  have hvalid : c.toNat < 0xD800 ∨ 0xDFFF < c.toNat ∧ c.toNat < 0x110000 := c.valid
  have hval : c.val.toNat = c.toNat := rfl
  simp only [encodeChar, String.utf8EncodeChar, hval]
  generalize c.toNat = n at hvalid
  have htail : ∀ k, 0x80 + k % 64 = k % 64 + 128 := fun k => Nat.add_comm _ _
  split
  · rw [if_pos (by omega)]
  split
  · have hfirst : 0xC0 + n / 64 = n / 64 % 32 + 192 := by omega
    rw [if_neg (by omega), if_pos (by omega), hfirst, htail]
  split
  · have hfirst : 0xE0 + n / 4096 = n / 4096 % 16 + 224 := by omega
    rw [if_neg (by omega), if_neg (by omega), if_pos (by omega), hfirst, htail, htail]
  · have hfirst : 0xF0 + n / 262144 = n / 262144 % 8 + 240 := by omega
    rw [if_neg (by omega), if_neg (by omega), if_neg (by omega), hfirst, htail, htail, htail]

theorem toByteArray_encode (text : Text) : (encode text).toByteArray = text.utf8Encode := by
  rw [encode, List.utf8Encode, funext encodeChar_eq]

theorem isValidUTF8_iff : bytes.toByteArray.IsValidUTF8 ↔ ∃ text, bytes = encode text := by
  constructor
  · rintro ⟨text, htext⟩
    rw [← toByteArray_encode] at htext
    exact ⟨text, List.toByteArray_inj.1 htext⟩
  · rintro ⟨text, rfl⟩
    exact ⟨text, toByteArray_encode text⟩

theorem encode_cons (c : Char) (rest : Text) : encode (c :: rest) = encodeChar c ++ encode rest :=
  List.flatMap_cons

theorem encodeChar_ne_nil (c : Char) : encodeChar c ≠ [] := by
  simp only [encodeChar]
  split_ifs <;> exact List.cons_ne_nil _ _

/-- Only a line feed has its byte at the front of its encoding. -/
theorem head?_encode_ne (h : text.head? ≠ some '\n') : (encode text).head? ≠ some 0x0A := by
  cases text with
  | nil => simp [encode]
  | cons c rest =>
      intro hhead
      rw [encode_cons, List.head?_append_of_ne_nil _ (encodeChar_ne_nil c)] at hhead
      have hchar : c = Char.ofNat 0x0A :=
        eq_ofNat_of_mem_encodeChar (List.mem_of_mem_head? hhead) (by decide)
      exact h (congrArg some hchar)

end Utf8

namespace Text

theorem unifyNewlines_cons {c : Char} (h : c ≠ '\r') (rest : Text) :
    unifyNewlines (c :: rest) = c :: unifyNewlines rest :=
  @unifyNewlines_append_of_not_mem [c] (mt List.mem_singleton.1 h.symm) rest

/-- A carriage return makes a line feed, with the line feed behind it or alone. -/
theorem exists_unifyNewlines_return (rest : Text) :
    ∃ back, unifyNewlines ('\r' :: rest) = '\n' :: unifyNewlines back ∧ back <:+ rest := by
  by_cases h : rest.head? = some '\n'
  · obtain ⟨back, rfl⟩ := List.head?_eq_some_iff.1 h
    exact ⟨back, unifyNewlines_pair back, List.suffix_cons _ _⟩
  · exact ⟨rest, unifyNewlines_lone h, List.suffix_rfl⟩

theorem exists_unifyNewlines_cons (c : Char) (rest : Text) :
    ∃ d back, unifyNewlines (c :: rest) = d :: unifyNewlines back ∧ back <:+ rest := by
  by_cases h : c = '\r'
  · subst h
    exact ⟨'\n', exists_unifyNewlines_return rest⟩
  · exact ⟨c, rest, unifyNewlines_cons h rest, List.suffix_rfl⟩

end Text

namespace Bytes

theorem unifyNewlines_lone {rest : Bytes} (h : rest.head? ≠ some 0x0A) :
    unifyNewlines (0x0D :: rest) = 0x0A :: unifyNewlines rest := by
  apply unifyNewlines.eq_3
  rintro more rfl
  exact h rfl

theorem unifyNewlines_append_of_not_mem {front : Bytes} (h : 0x0D ∉ front) (rest : Bytes) :
    unifyNewlines (front ++ rest) = front ++ unifyNewlines rest := by
  induction front with
  | nil => rfl
  | cons byte front ih =>
      obtain ⟨hbyte, hfront⟩ := not_or.1 (mt List.mem_cons.2 h)
      rw [List.cons_append, unifyNewlines.eq_4, ih hfront, List.cons_append]
      · rintro more rfl _
        exact hbyte rfl
      · rintro rfl
        exact hbyte rfl

/-- The pass over the bytes finds the bytes of the text with unified line ends. -/
theorem unifyNewlines_encode (text : Text) :
    unifyNewlines (Utf8.encode text) = Utf8.encode (Text.unifyNewlines text) := by
  -- by the cases of the first of the two passes: a pair, or one other character
  fun_induction Text.joinReturnPairs text with
  | case1 => rfl
  | case2 rest ih =>
      have hbytes : Utf8.encode ('\r' :: '\n' :: rest) = 0x0D :: 0x0A :: Utf8.encode rest := rfl
      rw [hbytes, Text.unifyNewlines_pair, unifyNewlines.eq_2, ih]
      rfl
  | case3 c rest hpair ih =>
      by_cases hreturn : c = '\r'
      · subst hreturn
        have hhead : rest.head? ≠ some '\n' := by
          intro hfeed
          obtain ⟨more, hrest⟩ := List.head?_eq_some_iff.1 hfeed
          exact hpair more rfl hrest
        have hbytes : Utf8.encode ('\r' :: rest) = 0x0D :: Utf8.encode rest := rfl
        rw [hbytes, Text.unifyNewlines_lone hhead, unifyNewlines_lone (Utf8.head?_encode_ne hhead), ih]
        rfl
      · have hchar : 0x0D ∉ Utf8.encodeChar c := by
          intro hmem
          exact hreturn (Utf8.eq_ofNat_of_mem_encodeChar hmem (by decide))
        rw [Text.unifyNewlines_cons hreturn, Utf8.encode_cons, Utf8.encode_cons,
          unifyNewlines_append_of_not_mem hchar, ih]

end Bytes

namespace Text

variable {needle text : Text}

theorem prefix_of_prefix_unifyNewlines (hfeed : '\n' ∉ needle)
    (h : needle <+: unifyNewlines text) : needle <+: text := by
  induction needle generalizing text with
  | nil => exact List.nil_prefix
  | cons d more ih =>
      obtain ⟨hd, hmore⟩ := not_or.1 (mt List.mem_cons.2 hfeed)
      cases text with
      | nil => exact h
      | cons c rest =>
          by_cases hreturn : c = '\r'
          · subst hreturn
            obtain ⟨back, hback, -⟩ := exists_unifyNewlines_return rest
            rw [hback] at h
            exact absurd (List.cons_prefix_cons.1 h).1.symm hd
          · rw [unifyNewlines_cons hreturn, List.cons_prefix_cons] at h
            exact List.cons_prefix_cons.2 ⟨h.1, ih hmore h.2⟩

/-- Unified line ends neither hide nor make a piece of a line. -/
theorem infix_unifyNewlines_iff (hreturn : '\r' ∉ needle) (hfeed : '\n' ∉ needle) :
    needle <:+: unifyNewlines text ↔ needle <:+: text := by
  refine ⟨fun h => ?_, infix_unifyNewlines hreturn hfeed⟩
  -- one or two characters are used up at a time, so the induction is on the length
  induction hlength : text.length using Nat.strong_induction_on generalizing text with
  | _ n ih =>
      cases text with
      | nil => exact h
      | cons c rest =>
          obtain ⟨d, back, hunified, hback⟩ := exists_unifyNewlines_cons c rest
          rw [hunified, List.infix_cons_iff] at h
          rcases h with hstart | hlater
          · rw [← hunified] at hstart
            exact (prefix_of_prefix_unifyNewlines hfeed hstart).isInfix
          · have hshorter : back.length < n := by
              rw [← hlength, List.length_cons]
              exact Nat.lt_succ_of_le hback.length_le
            have hinfix := ih back.length hshorter hlater rfl
            exact hinfix.trans (hback.trans (List.suffix_cons c rest)).isInfix

end Text

theorem hasMarker_unifyNewlines (text : Text) :
    hasMarker (Text.unifyNewlines text) = hasMarker text := by
  rw [Bool.eq_iff_iff, hasMarker, hasMarker, Text.contains_iff, Text.contains_iff]
  exact Text.infix_unifyNewlines_iff HeaderStyle.return_not_mem_marker HeaderStyle.feed_not_mem_marker

namespace Disk

variable {disk : Disk} {path : Path} {content : Bytes}

theorem readText_of_read (h : disk.read path = .ok content) :
    disk.readText path = content.readText := by
  rw [readText, h]

/-- A file is read as a text if and only if its bytes are valid UTF-8. The text is spelled by the
    bytes that one pass over them leaves; it has no carriage return, it is read unchanged from a file
    that holds it, and it has the marker if and only if the text that the bytes spell has it. -/
theorem readText_unifies (hread : disk.read path = .ok content) :
    ((∃ text, disk.readText path = .ok text) ↔ content.toByteArray.IsValidUTF8) ∧
      (¬ content.toByteArray.IsValidUTF8 → disk.readText path = .error .notText) ∧
      ∀ spelled : Text, spelled.utf8Encode = content.toByteArray →
        ∃ text, disk.readText path = .ok text ∧
          text.utf8Encode = content.unifyNewlines.toByteArray ∧ '\r' ∉ text ∧
          (∀ (other : Disk) (target : Path), other.read target = .ok content.unifyNewlines →
            other.readText target = .ok text) ∧
          hasMarker text = hasMarker spelled := by
  have hspelled : ∀ spelled : Text, content = Utf8.encode spelled →
      disk.readText path = .ok (Text.unifyNewlines spelled) := by
    intro spelled hcontent
    rw [readText_of_read hread, hcontent, readText_encode]
  refine ⟨⟨?_, ?_⟩, ?_, ?_⟩
  · rintro ⟨text, htext⟩
    rw [readText_of_read hread, Bytes.readText] at htext
    split at htext
    next decoded hdecoded => exact Utf8.isValidUTF8_iff.2 ⟨decoded, Utf8.decode?_eq_some_iff.1 hdecoded⟩
    · cases htext
  · intro hvalid
    obtain ⟨spelled, hcontent⟩ := Utf8.isValidUTF8_iff.1 hvalid
    exact ⟨_, hspelled spelled hcontent⟩
  · intro hinvalid
    rw [readText_of_read hread, Bytes.readText]
    split
    next decoded hdecoded =>
      exact absurd (Utf8.isValidUTF8_iff.2 ⟨decoded, Utf8.decode?_eq_some_iff.1 hdecoded⟩) hinvalid
    · rfl
  · intro spelled hbytes
    rw [← Utf8.toByteArray_encode] at hbytes
    obtain rfl := List.toByteArray_inj.1 hbytes
    have hreturn := Text.return_not_mem_unifyNewlines spelled
    rw [Bytes.unifyNewlines_encode]
    refine ⟨_, hspelled spelled rfl, (Utf8.toByteArray_encode _).symm, hreturn, ?_,
      hasMarker_unifyNewlines spelled⟩
    intro other target hother
    rw [readText_of_read hother, readText_encode, Text.unifyNewlines_eq_self hreturn]

/-- Of a page with two carriage returns before a line feed, the first stands for itself. -/
theorem readText_unifies_page :
    let content : Bytes := [0xC3, 0xA9, 0x0D, 0x0D, 0x0A, 0x0D]
    let path := Path.ofText ['/', 's', '/', 'p', '.', 'm', 'd']
    (aliasedSite content).read path = .ok content ∧
      content.unifyNewlines = [0xC3, 0xA9, 0x0A, 0x0A, 0x0A] ∧
      ∃ text, (aliasedSite content).readText path = .ok text ∧
        text.utf8Encode = content.unifyNewlines.toByteArray ∧ '\r' ∉ text ∧
        hasMarker text = false := by
  intro content path
  have hread : (aliasedSite content).read path = .ok content := rfl
  have hspelled : ['é', '\r', '\r', '\n', '\r'].utf8Encode = content.toByteArray := rfl
  obtain ⟨-, -, htext⟩ := readText_unifies hread
  obtain ⟨text, htext, hbytes, hreturn, -, hmarker⟩ := htext _ hspelled
  exact ⟨hread, by decide, text, htext, hbytes, hreturn, hmarker.trans rfl⟩

end Disk

end LicenseStamp
