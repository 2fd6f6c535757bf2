import LicenseStamp.Proofs.Command.Tokens
import Mathlib.Data.List.Pairwise
import Mathlib.Data.List.Perm.Basic

/-! # Printing settings

Settings are printed as tokens, and no two of these set the same, verbose flags apart. Such tokens may
be noted in any order, so the settings are read back from every order of what is printed.
-/

namespace LicenseStamp.Command

namespace Settings

/-! ## Noting tokens -/

/-- The settings of no arguments. -/
def unset : Settings := ⟨none, false, false, none, 0, false, .auto⟩

/-- The settings with what a token sets. -/
def note (settings : Settings) : Token → Settings
  | .check => { settings with check := true }
  | .showDiff => { settings with showDiff := true }
  | .report path => { settings with report := some path }
  | .quiet _ => { settings with quiet := true }
  | .colors mode => { settings with colors := mode }
  | .verbose flag => { settings with verbose := min (settings.verbose + flag.count) 255 }
  | .root path => { settings with root := some path }

theorem settings_foldl (tokens : List Token) (reading : Reading) :
    (tokens.foldl Reading.note reading).settings = tokens.foldl note reading.settings := by
  induction tokens generalizing reading with
  | nil => rfl
  | cons token rest ih =>
      have hnote : (reading.note token).settings = reading.settings.note token := by
        cases token <;> rfl
      rw [List.foldl_cons, ih, hnote, List.foldl_cons]

variable {settings : Settings} {first second : Token}

/-- Tokens that fit together may be noted in either order. -/
theorem note_comm (h : first.Fits second) (settings : Settings) :
    (settings.note first).note second = (settings.note second).note first := by
  cases first with
  | verbose flag =>
      cases second with
      | verbose other =>
          have hcount : min (min (settings.verbose + flag.count) 255 + other.count) 255 =
              min (min (settings.verbose + other.count) 255 + flag.count) 255 := by omega
          simp only [note, hcount]
      | _ => rfl
  | _ => cases second <;> first | rfl | exact nomatch h rfl

theorem foldl_note_of_perm {tokens others : List Token} (hperm : tokens.Perm others)
    (hfits : tokens.Pairwise Token.Fits) :
    tokens.foldl note settings = others.foldl note settings := by
  refine hperm.foldl_eq' (fun first hfirst second hsecond current => ?_) settings
  by_cases hsame : first = second
  · rw [hsame]
  · exact note_comm (hfits.forall hfirst hsecond hsame) current

end Settings

/-! ## Printed tokens -/

/-- A way to print settings: which of the two forms the quiet flag has, whether the colour mode is
    written, as it must be unless it is the usual one, and how the verbose flags are. -/
structure Settings.Printing (settings : Settings) where
  letter : Bool
  colored : Bool
  flags : List VerboseFlag
  colors_eq : colored = false → settings.colors = .auto
  verbose_eq : settings.verbose = min (VerboseFlag.total flags) 255

namespace Settings

/-- Settings with values that are read as they are written. -/
def IsPrintable (settings : Settings) : Prop :=
  (∀ path ∈ settings.root, (Token.root path).IsProper) ∧
    ∀ path ∈ settings.report, (Token.report path).IsProper

namespace Printing

variable {settings : Settings}

/-- How many verbose flags are printed. -/
def count (printing : settings.Printing) : Nat := VerboseFlag.total printing.flags

/-- The printed tokens, in the order of the settings. -/
def tokens (printing : settings.Printing) : List Token :=
  (if settings.check then [.check] else []) ++ (if settings.showDiff then [.showDiff] else []) ++
    (settings.report.map .report).toList ++ (if settings.quiet then [.quiet printing.letter] else []) ++
    (if printing.colored then [.colors settings.colors] else []) ++ printing.flags.map .verbose ++
    (settings.root.map .root).toList

theorem isProper_of_mem_tokens (printing : settings.Printing) (h : settings.IsPrintable) {token : Token}
    (htoken : token ∈ printing.tokens) : token.IsProper := by
  cases token with
  | root path => exact h.1 path (by simpa [tokens] using htoken)
  | report path => exact h.2 path (by simpa [tokens] using htoken)
  | check | showDiff | quiet | colors | verbose => trivial

/-- What printed tokens set, each thing once except for verbose flags. -/
theorem sublist_map_sets (printing : settings.Printing) :
    (printing.tokens.map Token.sets).Sublist
      ([.check] ++ [.showDiff] ++ [.report] ++ [.quiet] ++ [.colors] ++
        List.replicate printing.flags.length .verbose ++ [.root]) := by
  have hflag : ∀ (c : Bool) (token : Token),
      ((if c then [token] else []).map Token.sets).Sublist [token.sets] := by
    intro c token
    cases c <;> simp
  have hreport : ((settings.report.map Token.report).toList.map Token.sets).Sublist [.report] := by
    cases settings.report <;> simp [Token.sets]
  have hroot : ((settings.root.map Token.root).toList.map Token.sets).Sublist [.root] := by
    cases settings.root <;> simp [Token.sets]
  have hverbose : ((printing.flags.map Token.verbose).map Token.sets).Sublist
      (List.replicate printing.flags.length .verbose) := by
    rw [List.map_map, ← List.map_const']
    exact .refl _
  simp only [tokens, List.map_append]
  exact ((((((hflag _ _).append (hflag _ _)).append hreport).append (hflag _ _)).append
    (hflag _ _)).append hverbose).append hroot

/-- No two printed tokens set the same, except for verbose flags. -/
theorem pairwise_tokens (printing : settings.Printing) : printing.tokens.Pairwise Token.Fits := by
  have hsets : (printing.tokens.map Token.sets).Pairwise fun a b => a = b → a = .verbose := by
    refine List.Pairwise.sublist printing.sublist_map_sets ?_
    rw [List.pairwise_append, List.pairwise_append]
    refine ⟨⟨by decide, List.pairwise_replicate.2 (.inr fun _ => rfl), fun a ha b hb hsame => ?_⟩,
      List.pairwise_singleton _ _, fun a ha b hb hsame => ?_⟩
    · rw [hsame]
      exact List.eq_of_mem_replicate hb
    · rw [List.mem_singleton.1 hb] at hsame
      subst hsame
      rcases List.mem_append.1 ha with hsingle | hverbose
      · exact absurd hsingle (by decide)
      · exact List.eq_of_mem_replicate hverbose
  have hfits := List.pairwise_map.1 hsets
  exact hfits

theorem foldl_flags (flags : List VerboseFlag) {current : Settings} (h : current.verbose ≤ 255) :
    (flags.map Token.verbose).foldl note current =
      { current with verbose := min (current.verbose + VerboseFlag.total flags) 255 } := by
  induction flags generalizing current with
  | nil => simp [h, VerboseFlag.total]
  | cons flag rest ih =>
      have hcount : min (min (current.verbose + flag.count) 255 + VerboseFlag.total rest) 255 =
          min (current.verbose + (flag.count + VerboseFlag.total rest)) 255 := by omega
      rw [List.map_cons, List.foldl_cons, ih (Nat.min_le_right _ _)]
      simp only [note, hcount, VerboseFlag.total]

theorem foldl_check (given : Bool) (current : Settings) :
    (if given then [Token.check] else []).foldl note current =
      { current with check := current.check || given } := by
  cases given <;> simp [note]

theorem foldl_showDiff (given : Bool) (current : Settings) :
    (if given then [Token.showDiff] else []).foldl note current =
      { current with showDiff := current.showDiff || given } := by
  cases given <;> simp [note]

theorem foldl_quiet (given letter : Bool) (current : Settings) :
    (if given then [Token.quiet letter] else []).foldl note current =
      { current with quiet := current.quiet || given } := by
  cases given <;> simp [note]

theorem foldl_colors (given : Bool) (mode : ColorMode) (current : Settings) :
    (if given then [Token.colors mode] else []).foldl note current =
      { current with colors := if given then mode else current.colors } := by
  cases given <;> simp [note]

theorem foldl_report (value : Option Path) (current : Settings) :
    (value.map Token.report).toList.foldl note current =
      { current with report := value.or current.report } := by
  cases value <;> rfl

theorem foldl_root (value : Option Path) (current : Settings) :
    (value.map Token.root).toList.foldl note current =
      { current with root := value.or current.root } := by
  cases value <;> rfl

/-- In the order of the settings, the tokens set what is printed. -/
theorem foldl_tokens (printing : settings.Printing) :
    printing.tokens.foldl note Settings.unset = settings := by
  have hcolors : (if printing.colored then settings.colors else .auto) = settings.colors := by
    split
    · rfl
    next hplain => exact (printing.colors_eq (by simpa using hplain)).symm
  rw [tokens, List.foldl_append, List.foldl_append, List.foldl_append, List.foldl_append,
    List.foldl_append, List.foldl_append, foldl_check, foldl_showDiff, foldl_report, foldl_quiet,
    foldl_colors, foldl_flags _ (by simp [Settings.unset]), foldl_root]
  simp only [Settings.unset, hcolors, Bool.false_or, Option.or_none, Nat.zero_add,
    ← printing.verbose_eq]

end Printing

end Settings

namespace Settings.Printing

variable {settings : Settings} {tokens : List Token}

theorem count_pos_iff (printing : settings.Printing) : 0 < printing.count ↔ 0 < settings.verbose := by
  rw [printing.verbose_eq, count]
  omega

/-- Printed tokens in any order are noted as the settings, before those that exclude each other are
    looked for. -/
theorem exists_ofArguments_eq (printing : settings.Printing) (hprintable : settings.IsPrintable)
    (hperm : tokens.Perm printing.tokens) :
    ∃ last : Reading, Request.ofArguments (tokens.map Token.argument) =
      if settings.quiet = true ∧ 0 < settings.verbose then .error last.conflict
      else .ok (.run settings) := by
  have hfits : tokens.Pairwise Token.Fits :=
    hperm.symm.pairwise printing.pairwise_tokens (Std.Symm.symm _ _)
  have hlacks : ∀ token ∈ tokens, Reading.start.Lacks token := by
    intro token _
    cases token <;> trivial
  obtain ⟨last, hlast, hread⟩ := Reading.read_tokens (Reading.comesTo_self rfl)
    (fun token h => printing.isProper_of_mem_tokens hprintable (hperm.subset h)) hlacks hfits
  have hsettings : (tokens.foldl Reading.note Reading.start).settings = settings := by
    rw [settings_foldl, foldl_note_of_perm hperm hfits]
    exact printing.foldl_tokens
  have hquiet := congrArg Settings.quiet hsettings
  have hverbose := congrArg Settings.verbose hsettings
  dsimp only [Reading.settings] at hquiet hverbose
  refine ⟨tokens.foldl Reading.note Reading.start, ?_⟩
  rw [Request.ofArguments, hread, hlast.finish_eq, hsettings, hquiet, hverbose]

end Settings.Printing

/-- Settings are read back from their printed tokens in any order, as long as they are not both quiet
    and verbose. Tokens that are both are refused in any order, and no other arguments are accepted
    that ask for both. -/
theorem Request.ofArguments_of_perm :
    (∀ (settings : Settings) (printing : settings.Printing) (tokens : List Token),
      settings.IsPrintable → tokens.Perm printing.tokens →
        (¬ (settings.quiet = true ∧ 0 < printing.count) →
          Request.ofArguments (tokens.map Token.argument) = .ok (.run settings)) ∧
        (settings.quiet = true ∧ 0 < printing.count →
          ∃ e, Request.ofArguments (tokens.map Token.argument) = .error e ∧
            (e = .conflict .quiet .verbose ∨ e = .conflict .verbose .quiet))) ∧
    ∀ (arguments : List Path) (settings : Settings),
      Request.ofArguments arguments = .ok (.run settings) →
        ¬ (settings.quiet = true ∧ 0 < settings.verbose) := by
  refine ⟨fun settings printing tokens hprintable hperm => ?_, fun arguments settings h => ?_⟩
  · obtain ⟨last, hread⟩ := printing.exists_ofArguments_eq hprintable hperm
    rw [printing.count_pos_iff, hread]
    refine ⟨fun hmodest => if_neg hmodest, fun hboth => ⟨last.conflict, if_pos hboth, ?_⟩⟩
    rw [Reading.conflict]
    split
    · exact .inl rfl
    · exact .inr rfl
  · exact Reading.isModest_of_read h

/-- Settings of a check of `-`, and of the same check with the quiet flag. -/
def sampleSettings (quiet : Bool) : Settings :=
  ⟨some (.ofText ['-']), true, false, some (.ofText ['r']), 3, quiet, .never⟩

/-- The settings with a flag by its name and two letters. -/
def samplePrinting (quiet : Bool) : (sampleSettings quiet).Printing :=
  ⟨true, true, [.name, .letters 1], fun h => absurd h (by decide), rfl⟩

/-- The printed tokens with or without the quiet flag, in another order. -/
def sampleTokens (quiet : Bool) : List Token :=
  [.verbose (.letters 1), .root (.ofText ['-']), .colors .never] ++
    (if quiet then [.quiet true] else []) ++ [.report (.ofText ['r']), .verbose .name, .check]

theorem Request.ofArguments_of_perm_sample :
    (sampleTokens true).map Token.argument =
        [.ofText "-vv".toList, .ofText "-".toList, .ofText "--colors=never".toList,
          .ofText "-q".toList, .ofText "--report-json=r".toList, .ofText "--verbose".toList,
          .ofText "--check".toList] ∧
      [ColorMode.auto, .never, .always].map (fun mode => (Token.colors mode).argument) =
        [.ofText "--colors=auto".toList, .ofText "--colors=never".toList,
          .ofText "--colors=always".toList] ∧
      Request.ofArguments ((sampleTokens false).map Token.argument) =
        .ok (.run (sampleSettings false)) ∧
      (∃ e, Request.ofArguments ((sampleTokens true).map Token.argument) = .error e) ∧
      ¬ ((sampleSettings false).quiet = true ∧ 0 < (sampleSettings false).verbose) := by
  have hprintable : ∀ quiet, (sampleSettings quiet).IsPrintable := by
    intro quiet
    refine ⟨fun path hpath => ?_, fun path hpath => ?_⟩
    · obtain rfl := Option.some.inj hpath
      exact .inl (by decide)
    · obtain rfl := Option.some.inj hpath
      exact List.cons_ne_nil _ _
  have hperm : ∀ quiet, (sampleTokens quiet).Perm (samplePrinting quiet).tokens := by decide
  have hread := (Request.ofArguments_of_perm.1 (sampleSettings false) (samplePrinting false) _
    (hprintable false) (hperm false)).1 (by decide)
  obtain ⟨e, hrefused, -⟩ := (Request.ofArguments_of_perm.1 (sampleSettings true)
    (samplePrinting true) _ (hprintable true) (hperm true)).2 (by decide)
  exact ⟨by decide, rfl, hread, ⟨e, hrefused⟩, Request.ofArguments_of_perm.2 _ _ hread⟩

end LicenseStamp.Command
