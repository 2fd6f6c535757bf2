import LicenseStamp.Proofs.Path.Respelling
import LicenseStamp.Proofs.Selection.Rules
import LicenseStamp.Proofs.Text.Utf8

/-! # Eligibility by components

The rules of eligibility, said about the components of a path and of a root. A file is a candidate
if its last component is a name with a known extension that is not skipped, and no component before
the last one, below the root, is the name of a skipped directory. Voids in either path do not matter.
-/

namespace LicenseStamp

namespace Component

/-- A component that is one of some names. -/
def IsOneOf (component : Component) (names : List Text) : Prop :=
  ∃ name ∈ names, component = .name (Utf8.encode name)

/-- A name with these bytes behind its last dot, which is not the first byte of the name. -/
def HasExtension (component : Component) (extension : Bytes) : Prop :=
  ∃ front, front ≠ [] ∧ Path.dot ∉ extension ∧ component = .name (front ++ Path.dot :: extension)

/-- A name whose extension is one of those of a style, but for the case of ASCII letters. -/
def AsksFor (component : Component) (style : HeaderStyle) : Prop :=
  ∃ extension : Text, component.HasExtension (Utf8.encode extension) ∧
    ∃ known ∈ style.extensions, extension.map Char.toLower = known.map Char.toLower

end Component

/-- The components of a path behind those of a root, or all of them where those of the root do not
    come first. -/
def Path.componentsBelow (path root : Path) : List Component :=
  if root.components <+: path.components then path.components.drop root.components.length
  else path.components

namespace Eligibility

/-- The last component is the name of a file that is never touched. -/
def IsSkipListed (path : Path) : Prop :=
  ∃ last, path.components.getLast? = some last ∧ last.IsOneOf Filter.skippedFiles

/-- A component below the root, other than the last one, is the name of a directory that is never
    entered. -/
def IsInsideSkipped (root path : Path) : Prop :=
  ∃ component ∈ (path.componentsBelow root).dropLast, component.IsOneOf Filter.skippedDirs

/-- The last component asks for a style. -/
def AsksFor (path : Path) (style : HeaderStyle) : Prop :=
  ∃ last, path.components.getLast? = some last ∧ last.AsksFor style

end Eligibility

/-! ## Names -/

theorem Filter.isSkippedComponent_iff {component : Component} :
    isSkippedComponent component = true ↔ component.IsOneOf skippedDirs := by
  cases component with
  | root | here | up => simp [isSkippedComponent, Component.IsOneOf]
  | name bytes =>
      simp only [isSkippedComponent, isSkippedDirName, isSkippedDir, Option.any_eq_true,
        Utf8.decode?_eq_some_iff, List.contains_iff_mem, Component.IsOneOf, Component.name.injEq,
        and_comm]

namespace Path

variable {path : Path} {name extension : Bytes}

theorem fileName?_eq_some_iff :
    path.fileName? = some name ↔ path.components.getLast? = some (.name name) := by
  unfold fileName?
  split
  next other hlast => rw [hlast, Option.some.injEq, Option.some.injEq, Component.name.injEq]
  next hother =>
    constructor
    · intro h
      cases h
    · exact fun hname => absurd hname (hother name)

theorem extensionOf?_of_not_mem (h : dot ∉ name) : extensionOf? name = none := by
  have hnone : ∀ byte ∈ name.reverse, (byte != dot) = true := by
    intro byte hbyte
    rw [bne_iff_ne]
    rintro rfl
    exact h (List.mem_reverse.1 hbyte)
  have hall : (name.reverse.takeWhile (· != dot)).reverse = name := by
    rw [List.takeWhile_eq_self_iff.2 hnone, List.reverse_reverse]
  simp only [extensionOf?, hall]
  exact if_neg (by omega)

theorem extensionOf?_append_dot (h : dot ∉ extension) (front : Bytes) :
    extensionOf? (front ++ dot :: extension) = if front = [] then none else some extension := by
  have hnone : ∀ byte ∈ extension.reverse, (byte != dot) = true := by
    intro byte hbyte
    rw [bne_iff_ne]
    rintro rfl
    exact h (List.mem_reverse.1 hbyte)
  have hafter : ((front ++ dot :: extension).reverse.takeWhile (· != dot)).reverse = extension := by
    rw [List.reverse_append, List.reverse_cons, List.append_assoc,
      List.takeWhile_append_of_pos hnone, List.singleton_append,
      List.takeWhile_cons_of_neg (by simp), List.append_nil, List.reverse_reverse]
  simp only [extensionOf?, hafter, List.length_append, List.length_cons]
  by_cases hfront : front = []
  · rw [if_pos hfront, if_neg (by simp [hfront])]
  · have hpos := List.length_pos_iff.2 hfront
    rw [if_neg hfront, if_pos (by omega)]

/-- Behind the last dot of a name stands its extension, if something stands before the dot. -/
theorem extensionOf?_eq_some_iff :
    extensionOf? name = some extension ↔
      ∃ front, front ≠ [] ∧ dot ∉ extension ∧ name = front ++ dot :: extension := by
  constructor
  · intro h
    by_cases hdot : dot ∈ name.reverse
    · obtain ⟨behind, before, hname, hlast⟩ := List.eq_append_cons_of_mem hdot
      have hcut : name = before.reverse ++ dot :: behind.reverse := by
        rw [← List.reverse_reverse name, hname]
        simp
      have hafter : dot ∉ behind.reverse := mt List.mem_reverse.1 hlast
      rw [hcut, extensionOf?_append_dot hafter] at h
      split at h
      · cases h
      next hfront =>
        obtain rfl := Option.some.inj h
        exact ⟨_, hfront, hafter, hcut⟩
    · rw [extensionOf?_of_not_mem (mt List.mem_reverse.2 hdot)] at h
      cases h
  · rintro ⟨front, hfront, hafter, rfl⟩
    rw [extensionOf?_append_dot hafter, if_neg hfront]

/-- Cutting a path at a root looks at components alone. -/
theorem components_seen (path root : Path) :
    ((path.below? root).getD path).components = path.componentsBelow root := by
  have hbelow := map_components_below? path root
  unfold componentsBelow
  cases hleft : path.below? root with
  | none =>
      rw [hleft, Option.map_none] at hbelow
      split at hbelow
      · cases hbelow
      next hstart => rw [if_neg hstart, Option.getD_none]
  | some left =>
      rw [hleft, Option.map_some] at hbelow
      split at hbelow
      next hstart => rw [if_pos hstart, Option.getD_some, Option.some.inj hbelow]
      · cases hbelow

end Path

/-! ## Extensions -/

theorem Text.lowerAsciiChar_eq_toLower (c : Char) : lowerAsciiChar c = c.toLower := by
  unfold Char.toLower lowerAsciiChar
  split
  next h =>
    have hsmall : c.toNat ≤ 90 := h.2
    have hcapital : c.val ≥ 'A'.val ∧ c.val ≤ 'Z'.val := h
    rw [dif_pos hcapital, ← Char.toNat_inj, Utf8.toNat_ofNat_of_valid (by omega)]
    change c.toNat + 32 = (c.val + 32).toNat
    rw [UInt32.toNat_add]
    exact (Nat.mod_eq_of_lt (by omega)).symm
  next h =>
    have hother : ¬ (c.val ≥ 'A'.val ∧ c.val ≤ 'Z'.val) := h
    rw [dif_neg hother]

theorem HeaderStyle.map_toLower_of_mem {style : HeaderStyle} {known : Text}
    (h : known ∈ style.extensions) : known.map Char.toLower = known := by
  have hall : ∀ style : HeaderStyle, ∀ known ∈ style.extensions, known.map Char.toLower = known := by
    rintro (_ | _) <;> decide
  exact hall style known h

theorem HeaderStyle.ofExtension?_eq_some_iff {extension : Text} {style : HeaderStyle} :
    ofExtension? extension = some style ↔
      ∃ known ∈ style.extensions, extension.map Char.toLower = known.map Char.toLower := by
  have hlower : Text.lowerAscii extension = extension.map Char.toLower :=
    List.map_congr_left fun c _ => Text.lowerAsciiChar_eq_toLower c
  have hone : extension.map Char.toLower ∈ extensions .html →
      extension.map Char.toLower ∉ extensions .code := by
    have hall : ∀ known ∈ extensions .html, known ∉ extensions .code := by decide
    exact hall _
  have hmem : (∃ known ∈ style.extensions, extension.map Char.toLower = known.map Char.toLower) ↔
      extension.map Char.toLower ∈ style.extensions := by
    constructor
    · rintro ⟨known, hknown, heq⟩
      rwa [heq, map_toLower_of_mem hknown]
    · exact fun h => ⟨_, h, (map_toLower_of_mem h).symm⟩
  simp only [hmem, ofExtension?, hlower, List.contains_iff_mem]
  cases style with
  | html =>
      split
      next hhtml => simp only [hhtml]
      next hhtml => split <;> simp [hhtml]
  | code =>
      split
      next hhtml => simp [hone hhtml]
      · split <;> simp [*]

namespace Eligibility

variable {root path : Path} {style : HeaderStyle}

theorem isSkipListed_iff :
    path.fileName?.any Filter.isSkippedFileName = true ↔ IsSkipListed path := by
  simp only [Option.any_eq_true, Path.fileName?_eq_some_iff, Filter.isSkippedFileName,
    Utf8.decode?_eq_some_iff, List.contains_iff_mem]
  constructor
  · rintro ⟨_, hlast, name, rfl, hname⟩
    exact ⟨_, hlast, name, hname, rfl⟩
  · rintro ⟨_, hlast, name, hname, rfl⟩
    exact ⟨_, hlast, name, rfl, hname⟩

theorem isInsideSkipped_iff : Filter.isInSkippedDir root path = true ↔ IsInsideSkipped root path := by
  simp only [Filter.isInSkippedDir, Path.components_parent?, Path.components_seen, List.any_eq_true,
    Filter.isSkippedComponent_iff, IsInsideSkipped]

theorem asksFor_iff : path.style? = some style ↔ AsksFor path style := by
  simp only [Path.style?, Path.extension?, Option.bind_eq_some_iff, Path.fileName?_eq_some_iff,
    Path.extensionOf?_eq_some_iff, Utf8.decode?_eq_some_iff, HeaderStyle.ofExtension?_eq_some_iff]
  constructor
  · rintro ⟨extension, ⟨_, ⟨name, hlast, front, hfront, hdot, rfl⟩, rfl⟩, hknown⟩
    exact ⟨_, hlast, extension, ⟨front, hfront, hdot, rfl⟩, hknown⟩
  · rintro ⟨_, hlast, extension, ⟨front, hfront, hdot, rfl⟩, hknown⟩
    exact ⟨extension, ⟨_, ⟨_, hlast, front, hfront, hdot, rfl⟩, rfl⟩, hknown⟩

/-! ## Classification -/

theorem classify_eq_of_components {root' path' : Path} (hroot : root'.components = root.components)
    (hpath : path'.components = path.components) : classify root' path' = classify root path := by
  have hname : path'.fileName? = path.fileName? := by rw [Path.fileName?, Path.fileName?, hpath]
  have hinside : Filter.isInSkippedDir root' path' = Filter.isInSkippedDir root path := by
    rw [Bool.eq_iff_iff, isInsideSkipped_iff, isInsideSkipped_iff, IsInsideSkipped, IsInsideSkipped,
      Path.componentsBelow, Path.componentsBelow, hroot, hpath]
  rw [classify_eq, classify_eq, hname, hinside, Path.style?_of_fileName? hname]

/-- The rules never fail. A file is a candidate for a style if its name is not skipped and asks for the
    style, and it lies in no skipped directory below the root. Otherwise it is rejected: for its name
    before all else, then for a directory, and then for its extension. All this depends on the
    components of the two paths alone, so that these can be respelled. -/
theorem classify_by_components (root path : Path) :
    (∃ verdict, ∀ ε : Type,
        (Filter.all [.skipFile, .skipDir root] : Filter ε).judge path = .ok verdict) ∧
      (∀ style, classify root path = .candidate style ↔
        ¬ IsSkipListed path ∧ ¬ IsInsideSkipped root path ∧ AsksFor path style) ∧
      (∀ reason, classify root path = .rejected reason ↔
        IsSkipListed path ∧ reason = "Skip-listed file".toList ∨
        ¬ IsSkipListed path ∧ IsInsideSkipped root path ∧
          reason = "Inside skip-listed directory".toList ∨
        ¬ IsSkipListed path ∧ ¬ IsInsideSkipped root path ∧ (∀ style, ¬ AsksFor path style) ∧
          reason = "Unsupported extension".toList) ∧
      (∀ root' path' : Path, root'.components = root.components →
        path'.components = path.components → classify root' path' = classify root path) ∧
      ∀ root' path', root.IsRespelled root' → path.IsRespelled path' →
        classify root' path' = classify root path := by
  refine ⟨?_, ?_, ?_, fun _ _ => classify_eq_of_components, ?_⟩
  · simp only [Filter.judge, Filter.judgeAll, Filter.skipFile, Filter.skipDir]
    cases path.fileName?.any Filter.isSkippedFileName with
    | true => exact ⟨_, fun _ => rfl⟩
    | false =>
        cases Filter.isInSkippedDir root path with
        | true => exact ⟨_, fun _ => rfl⟩
        | false => exact ⟨_, fun _ => rfl⟩
  · intro style
    rw [classify_eq, ← isSkipListed_iff, ← isInsideSkipped_iff, ← asksFor_iff]
    cases path.fileName?.any Filter.isSkippedFileName with
    | true => simp
    | false =>
        cases Filter.isInSkippedDir root path with
        | true => simp
        | false => cases path.style? <;> simp
  · intro reason
    rw [classify_eq, ← isSkipListed_iff, ← isInsideSkipped_iff]
    simp only [← asksFor_iff]
    cases path.fileName?.any Filter.isSkippedFileName with
    | true => simp [eq_comm (a := reason)]
    | false =>
        cases Filter.isInSkippedDir root path with
        | true => simp [eq_comm (a := reason)]
        | false => cases path.style? <;> simp [eq_comm (a := reason)]
  · intro root' path' hroot hpath
    exact classify_eq_of_components hroot.components_eq.symm hpath.components_eq.symm

/-- A script below a root in a skipped directory is a candidate, also when the two are spelled with more
    voids. Seen from another root it lies in the skipped directory. -/
theorem classify_by_components_script :
    let dist := Utf8.encode ['/', 'd', 'i', 's', 't']
    let script := Utf8.encode ['.', 'a', '.', 'J', 's']
    let path : Path := ⟨dist ++ Path.slash :: script⟩
    let respelled : Path := ⟨dist ++ Path.slash :: Path.dot :: Path.slash :: script⟩
    classify ⟨dist⟩ path = .candidate .code ∧
      Path.IsRespelled ⟨dist⟩ ⟨dist ++ [Path.slash]⟩ ∧ path.IsRespelled respelled ∧
      classify ⟨dist ++ [Path.slash]⟩ respelled = .candidate .code ∧
      IsInsideSkipped ⟨Utf8.encode ['/', 's']⟩ path ∧
      classify ⟨Utf8.encode ['/', 's']⟩ path = .rejected "Inside skip-listed directory".toList := by
  intro dist script path respelled
  have hcandidate : classify ⟨dist⟩ path = .candidate .code := by decide +kernel
  have hroot : Path.IsRespelled ⟨dist⟩ ⟨dist ++ [Path.slash]⟩ :=
    .rel _ _ (.lastSlash (by decide +kernel))
  have hpath : path.IsRespelled respelled := .rel _ _ (.dot dist script)
  have hskipped : classify ⟨Utf8.encode ['/', 's']⟩ path =
      .rejected "Inside skip-listed directory".toList := by decide +kernel
  obtain ⟨-, -, -, -, hsame⟩ := classify_by_components ⟨dist⟩ path
  obtain ⟨-, -, hrejected, -⟩ := classify_by_components ⟨Utf8.encode ['/', 's']⟩ path
  refine ⟨hcandidate, hroot, hpath, (hsame _ _ hroot hpath).trans hcandidate, ?_, hskipped⟩
  rcases (hrejected _).1 hskipped with ⟨-, h⟩ | ⟨-, hinside, -⟩ | ⟨-, -, -, h⟩
  · exact absurd h (by decide +kernel)
  · exact hinside
  · exact absurd h (by decide +kernel)

end Eligibility

end LicenseStamp
