import LicenseStamp.Proofs.Command.Reading

/-! # Arguments that set something

A token is an argument that sets one thing, written in one of its ways. A token that sets something
new is taken by the reader and noted, whatever comes behind it; so a list of tokens in which no two
set the same, verbose flags apart, comes to what its tokens note one after the other.
-/

namespace LicenseStamp.Command

/-- How verbose flags are written. -/
inductive VerboseFlag where
  /-- One flag, by its name. -/
  | name
  /-- Letters behind one dash, a flag each and one more than the number. -/
  | letters (more : Nat)
  deriving Repr, DecidableEq

/-- How many verbose flags are written. -/
def VerboseFlag.count : VerboseFlag → Nat
  | .name => 1
  | .letters more => more + 1

/-- How many verbose flags are written one after the other. -/
def VerboseFlag.total : List VerboseFlag → Nat
  | [] => 0
  | flag :: rest => flag.count + total rest

/-- An argument that sets something. -/
inductive Token where
  /-- The flag to only check. -/
  | check
  /-- The flag to show diffs. -/
  | showDiff
  /-- The path of the report document. -/
  | report (path : Path)
  /-- The quiet flag, by its letter or by its name. -/
  | quiet (letter : Bool)
  /-- The colour mode. -/
  | colors (mode : ColorMode)
  /-- Verbose flags. -/
  | verbose (flag : VerboseFlag)
  /-- The directory to scan. -/
  | root (path : Path)
  deriving Repr, DecidableEq

namespace Token

/-- The argument that is written for a token. -/
def argument : Token → Path
  | .check => .ofText "--check".toList
  | .showDiff => .ofText "--show-diff".toList
  | .report path => ⟨Utf8.encode "--report-json=".toList ++ path.bytes⟩
  | .quiet true => .ofText "-q".toList
  | .quiet false => .ofText "--quiet".toList
  | .colors mode => .ofText ("--colors=".toList ++ mode.name)
  | .verbose .name => .ofText "--verbose".toList
  | .verbose (.letters more) => .ofText ('-' :: List.replicate (more + 1) 'v')
  | .root path => path

/-- What a token sets. -/
def sets : Token → Argument
  | .check => .check
  | .showDiff => .showDiff
  | .report _ => .report
  | .quiet _ => .quiet
  | .colors _ => .colors
  | .verbose _ => .verbose
  | .root _ => .root

/-- A token that is read as what it sets: a value is not empty, and a root looks like no option. -/
def IsProper : Token → Prop
  | .report path => path.bytes ≠ []
  | .root path => path.bytes = [0x2D] ∨ (path.bytes ≠ [] ∧ path.bytes.head? ≠ some 0x2D)
  | _ => True

/-- A token that is written by one name, with no value and no count. -/
def IsFlag : Token → Prop
  | .check | .showDiff | .quiet _ | .verbose .name => True
  | _ => False

/-- Two tokens that may stand in one list: only verbose flags are counted. -/
def Fits (first second : Token) : Prop := first.sets = second.sets → first.sets = .verbose

instance : Std.Symm Fits where
  symm _ _ h hsame := hsame.trans (h hsame.symm)

end Token

namespace Reading

/-- The arguments read so far and one more, its value looked at. -/
def note (reading : Reading) : Token → Reading
  | .check => { reading with check := true }
  | .showDiff => { reading with showDiff := true }
  | .report path => { reading with report := some path }
  | .quiet _ => { reading with quiet := true, verboseLast := false }
  | .colors mode => { reading with colors := some mode }
  | .verbose flag =>
    { reading with verbose := min (reading.verbose + flag.count) 255, verboseLast := true }
  | .root path => { reading with root := some path, rootGiven := true }

/-- Nothing is set yet that a token sets. -/
def Lacks (reading : Reading) : Token → Prop
  | .check => reading.check = false
  | .showDiff => reading.showDiff = false
  | .report _ => reading.report = none
  | .quiet _ => reading.quiet = false
  | .colors _ => reading.colors = none
  | .verbose _ => True
  | .root _ => reading.rootGiven = false

/-- What is read comes to something in which no value waits. -/
structure ComesTo (reading settled : Reading) : Prop where
  settle_eq : reading.settle = .ok settled
  waiting_eq : settled.waiting = .nothing
  rootGiven_eq : reading.rootGiven = settled.rootGiven
  takePlain_eq : ∀ path, reading.takePlain path = reading.takeRoot path

variable {reading settled : Reading} {token : Token} {rest : List Path}

theorem comesTo_self (h : settled.waiting = .nothing) : ComesTo settled settled := by
  refine ⟨?_, h, rfl, fun path => ?_⟩
  · simp only [settle, h]
  · simp only [takePlain, h]

theorem waiting_note (h : settled.waiting = .nothing) (token : Token) :
    (settled.note token).waiting = .nothing := by
  cases token <;> exact h

theorem comesTo_note (h : settled.waiting = .nothing) (token : Token) :
    ComesTo (settled.note token) (settled.note token) :=
  comesTo_self (waiting_note h token)

/-! ## One token -/

theorem takeFlag_eq (h : ComesTo reading settled) (argument : Argument) :
    reading.takeFlag argument = settled.takeFlag argument := by
  rw [takeFlag, takeFlag, h.settle_eq, (comesTo_self h.waiting_eq).settle_eq]

theorem takeAttached_eq (h : ComesTo reading settled) (argument : Argument) (value : Path) :
    reading.takeAttached argument value = settled.takeAttached argument value := by
  unfold takeAttached
  rw [h.settle_eq, (comesTo_self h.waiting_eq).settle_eq]

/-- A flag that is not set yet is taken by its name and noted. -/
theorem takeFlag_note (token : Token) (h : settled.waiting = .nothing) (hflag : token.IsFlag)
    (hlacks : settled.Lacks token) :
    settled.takeFlag token.sets = .ok (.inl (settled.note token)) := by
  rw [takeFlag, (comesTo_self h).settle_eq]
  cases token with
  | check | showDiff | quiet =>
      simp only [Lacks] at hlacks
      simp only [Token.sets, bind, Except.bind, hlacks]
      rfl
  | verbose flag =>
      cases flag with
      | name => rfl
      | letters more => exact hflag.elim
  | report path | colors mode | root path => exact hflag.elim

theorem takeAttached_report {path : Path} (h : settled.waiting = .nothing)
    (hlacks : settled.report = none) (hpath : path.bytes ≠ []) :
    settled.takeAttached .report path = .ok (.inl (settled.note (.report path))) := by
  have hvalue : settle { settled with waiting := .report (some path) } =
      .ok (settled.note (.report path)) := by
    simp [settle, note, hlacks, hpath, h]
  simp only [takeAttached, (comesTo_self h).settle_eq, bind, Except.bind, hvalue]
  rfl

theorem takeAttached_colors (h : settled.waiting = .nothing) (hlacks : settled.colors = none)
    (mode : ColorMode) :
    settled.takeAttached .colors (.ofText mode.name) =
      .ok (.inl (settled.note (.colors mode))) := by
  have hmode : (Utf8.decode? (Path.ofText mode.name).bytes).bind ColorMode.ofName? = some mode := by
    rw [Path.ofText, Utf8.decode?_encode, Option.bind_some]
    cases mode <;> decide
  have hname : (Path.ofText mode.name).bytes ≠ [] := by cases mode <;> decide
  have hvalue : settle { settled with waiting := .colors (some (.ofText mode.name)) } =
      .ok (settled.note (.colors mode)) := by
    simp [settle, note, hlacks, hname, hmode, h]
  simp only [takeAttached, (comesTo_self h).settle_eq, bind, Except.bind, hvalue]
  rfl

theorem takeShort_eq (h : ComesTo reading settled) (letter : Option Char)
    (letters : List (Option Char)) :
    reading.takeShort (letter :: letters) = settled.takeShort (letter :: letters) := by
  cases letter with
  | none => rfl
  | some c =>
      rw [takeShort, takeShort]
      cases Argument.ofShort? c with
      | none => rfl
      | some argument => simp only [takeFlag_eq h]

theorem takeShort_verbose (h : settled.waiting = .nothing) (letters : List (Option Char)) :
    settled.takeShort (some 'v' :: letters) =
      (settled.note (.verbose .name)).takeShort letters := by
  have hletter : Argument.ofShort? 'v' = some .verbose := rfl
  rw [takeShort, hletter]
  have hflag := takeFlag_note (.verbose .name) h trivial trivial
  simp only [Token.sets] at hflag
  simp only [hflag]
  rfl

/-- Letters behind one dash are taken like the flag as often. -/
theorem takeShort_letters (h : settled.waiting = .nothing) (more : Nat) :
    settled.takeShort (List.replicate (more + 1) (some 'v')) =
      .ok (.inl (settled.note (.verbose (.letters more)))) := by
  induction more generalizing settled with
  | zero =>
      rw [List.replicate_one, takeShort_verbose h]
      rfl
  | succ more ih =>
      rw [List.replicate_succ, takeShort_verbose h, ih (waiting_note h _)]
      have hcount : min (min (settled.verbose + 1) 255 + (more + 1)) 255 =
          min (settled.verbose + (more + 1 + 1)) 255 := by omega
      simp only [note, VerboseFlag.count, hcount]

theorem takePlain_root {path : Path} (h : ComesTo reading settled)
    (hlacks : settled.rootGiven = false) (hpath : path.bytes ≠ []) :
    ∃ next, ComesTo next (settled.note (.root path)) ∧ reading.takePlain path = .ok (.inl next) := by
  refine ⟨{ settled with rootGiven := true, waiting := .root path }, ⟨?_, h.waiting_eq, rfl, ?_⟩, ?_⟩
  · simp [settle, note, hpath, h.waiting_eq]
  · exact fun other => rfl
  · rw [h.takePlain_eq, takeRoot, h.rootGiven_eq, hlacks, h.settle_eq]
    rfl

/-- A token that is written by a name alone is read by taking the option of that name. -/
theorem read_flag (name : Text) (h : ComesTo reading settled)
    (hargument : token.argument = ⟨0x2D :: 0x2D :: Utf8.encode name⟩)
    (hname : Argument.ofLong? name = some token.sets) (hne : Utf8.encode name ≠ [])
    (hplain : (Utf8.encode name).all (· != '='.toUInt8) = true) (hflag : token.IsFlag)
    (hlacks : settled.Lacks token) :
    ∃ next, ComesTo next (settled.note token) ∧
      ∀ rest, reading.read (token.argument :: rest) = next.read rest := by
  refine ⟨_, comesTo_note h.waiting_eq token, fun rest => ?_⟩
  rw [hargument, read_name hname hne hplain, takeFlag_eq h,
    takeFlag_note token h.waiting_eq hflag hlacks]
  rfl

/-- A token that is written by a name and a value is read by taking the value at once. -/
theorem read_of_takeAttached (name : Text) {argument : Argument} {value : Bytes}
    (h : ComesTo reading settled)
    (hargument : token.argument = ⟨0x2D :: 0x2D :: (Utf8.encode name ++ '='.toUInt8 :: value)⟩)
    (hname : Argument.ofLong? name = some argument)
    (hplain : (Utf8.encode name).all (· != '='.toUInt8) = true)
    (hattached : settled.takeAttached argument ⟨value⟩ = .ok (.inl (settled.note token))) :
    ∃ next, ComesTo next (settled.note token) ∧
      ∀ rest, reading.read (token.argument :: rest) = next.read rest := by
  refine ⟨_, comesTo_note h.waiting_eq token, fun rest => ?_⟩
  rw [hargument, read_value hname hplain, takeAttached_eq h, hattached]
  rfl

/-- A token that is written by letters behind one dash is read by taking them one by one. -/
theorem read_of_takeShort (letter : Char) (letters : Text) (h : ComesTo reading settled)
    (hargument : token.argument = .ofText ('-' :: letter :: letters)) (hletter : letter ≠ '-')
    (hshort : settled.takeShort ((letter :: letters).map some) = .ok (.inl (settled.note token))) :
    ∃ next, ComesTo next (settled.note token) ∧
      ∀ rest, reading.read (token.argument :: rest) = next.read rest := by
  refine ⟨_, comesTo_note h.waiting_eq token, fun rest => ?_⟩
  rw [hargument, read_letters hletter, List.map_cons, takeShort_eq h, ← List.map_cons, hshort]
  rfl

/-- A token that sets something new is taken and noted, whatever comes behind it. -/
theorem read_token (h : ComesTo reading settled) (hproper : token.IsProper)
    (hlacks : settled.Lacks token) :
    ∃ next, ComesTo next (settled.note token) ∧
      ∀ rest, reading.read (token.argument :: rest) = next.read rest := by
  have hwaiting := h.waiting_eq
  cases token with
  | check =>
      exact read_flag "check".toList h rfl rfl (List.cons_ne_nil _ _) rfl trivial hlacks
  | showDiff =>
      exact read_flag "show-diff".toList h rfl rfl (List.cons_ne_nil _ _) rfl trivial hlacks
  | report path =>
      exact read_of_takeAttached "report-json".toList h rfl rfl rfl
        (takeAttached_report hwaiting hlacks hproper)
  | quiet letter =>
      cases letter with
      | false =>
          exact read_flag "quiet".toList h rfl rfl (List.cons_ne_nil _ _) rfl trivial hlacks
      | true =>
          refine read_of_takeShort 'q' [] h rfl (by decide) ?_
          have hletter : Argument.ofShort? 'q' = some .quiet := rfl
          have hflag := takeFlag_note (.quiet true) hwaiting trivial hlacks
          simp only [Token.sets] at hflag
          simp only [List.map_cons, takeShort, hletter, hflag]
          rfl
  | colors mode =>
      exact read_of_takeAttached "colors".toList h (by cases mode <;> rfl) rfl rfl
        (takeAttached_colors hwaiting hlacks mode)
  | verbose flag =>
      cases flag with
      | name =>
          exact read_flag "verbose".toList h rfl rfl (List.cons_ne_nil _ _) rfl trivial hlacks
      | letters more =>
          refine read_of_takeShort 'v' (List.replicate more 'v') h rfl (by decide) ?_
          rw [← List.replicate_succ, List.map_replicate, takeShort_letters hwaiting]
  | root path =>
      have hne : path.bytes ≠ [] := by
        rcases hproper with hdash | ⟨hne, -⟩
        · rw [hdash]
          exact List.cons_ne_nil _ _
        · exact hne
      obtain ⟨next, hnext, hplain⟩ := takePlain_root h hlacks hne
      refine ⟨next, hnext, fun rest => ?_⟩
      rw [Token.argument, read_plain (hproper.imp_right And.right), hplain]
      rfl

/-! ## All tokens -/

theorem lacks_note {other : Token} (h : settled.Lacks other) (hfits : token.Fits other) :
    (settled.note token).Lacks other := by
  cases other with
  | verbose => trivial
  | check | showDiff | report | quiet | colors | root =>
      cases token <;> first | exact h | exact nomatch hfits rfl

/-- Tokens that fit together are all taken and noted. -/
theorem read_tokens {tokens : List Token} (h : ComesTo reading settled)
    (hproper : ∀ token ∈ tokens, token.IsProper) (hlacks : ∀ token ∈ tokens, settled.Lacks token)
    (hfits : tokens.Pairwise Token.Fits) :
    ∃ last, ComesTo last (tokens.foldl note settled) ∧
      reading.read (tokens.map Token.argument) = last.finish := by
  induction tokens generalizing reading settled with
  | nil => exact ⟨reading, h, rfl⟩
  | cons token rest ih =>
      obtain ⟨hfirst, hrest⟩ := List.forall_mem_cons.1 hproper
      obtain ⟨hlacksFirst, hlacksRest⟩ := List.forall_mem_cons.1 hlacks
      obtain ⟨hfitsFirst, hfitsRest⟩ := List.pairwise_cons.1 hfits
      obtain ⟨next, hnext, hread⟩ := read_token h hfirst hlacksFirst
      obtain ⟨last, hlast, hfinish⟩ := ih hnext hrest
        (fun other hother => lacks_note (hlacksRest other hother) (hfitsFirst other hother)) hfitsRest
      exact ⟨last, hlast, by rw [List.map_cons, hread, hfinish]⟩

theorem ComesTo.finish_eq (h : ComesTo reading settled) :
    reading.finish =
      if settled.quiet = true ∧ 0 < settled.verbose then .error settled.conflict
      else .ok (.run settled.settings) := by
  rw [Reading.finish_eq, h.settle_eq]
  rfl

end Reading

end LicenseStamp.Command
