import LicenseStamp.Command.Arguments
import LicenseStamp.Proofs.Text.Utf8

/-! # Reading arguments

How one argument is taken and the others are read after it. Whatever the arguments are, a run that
they ask for is not quiet and verbose at once.
-/

namespace LicenseStamp.Command

/-- A request that is not for a run that is quiet and verbose at once. -/
def Request.IsModest : Request → Prop
  | .run settings => ¬ (settings.quiet = true ∧ 0 < settings.verbose)
  | .help | .version => True

namespace Reading

variable {reading : Reading} {argument : Argument} {rest : List Path}

/-- What an outcome comes to when other arguments are to be read. -/
def andRead (rest : List Path) : Reading ⊕ Request → Except UsageError Request
  | .inl reading => reading.read rest
  | .inr request => .ok request

/-! ## One argument -/

theorem read_long {long : Bytes} (hlong : long ≠ []) :
    reading.read (⟨0x2D :: 0x2D :: long⟩ :: rest) = (reading.takeLong long).bind (andRead rest) := by
  obtain ⟨byte, bytes, rfl⟩ := List.exists_cons_of_ne_nil hlong
  rfl

theorem read_short {byte : UInt8} {bytes : Bytes} (hbyte : byte ≠ 0x2D) :
    reading.read (⟨0x2D :: byte :: bytes⟩ :: rest) =
      (reading.takeShort (Utf8.scan (byte :: bytes))).bind (andRead rest) := by
  rw [read.eq_def]
  dsimp only
  split
  next same => exact absurd (List.cons.inj (List.cons.inj same).2).1 hbyte
  next same => exact absurd (List.cons.inj (List.cons.inj same).2).1 hbyte
  next same =>
    obtain ⟨rfl, rfl⟩ := List.cons.inj (List.cons.inj same).2
    rfl
  next hother => exact absurd rfl (hother byte bytes)

theorem read_plain {path : Path} (hpath : path.bytes = [0x2D] ∨ path.bytes.head? ≠ some 0x2D) :
    reading.read (path :: rest) = (reading.takePlain path).bind (andRead rest) := by
  have hdash : ∀ byte bytes, path.bytes ≠ 0x2D :: byte :: bytes := by
    intro byte bytes same
    rcases hpath with hone | hnone
    · rw [same] at hone
      cases hone
    · rw [same] at hnone
      exact hnone rfl
  rw [read.eq_def]
  dsimp only
  split
  next same => exact absurd same (hdash _ _)
  next same => exact absurd same (hdash _ _)
  next same => exact absurd same (hdash _ _)
  · rfl

/-! ## Options by name -/

variable {name : Text}

theorem takeWhile_name (hplain : (Utf8.encode name).all (· != '='.toUInt8) = true)
    (value : Bytes) :
    (Utf8.encode name ++ '='.toUInt8 :: value).takeWhile (· != '='.toUInt8) = Utf8.encode name := by
  rw [List.takeWhile_append_of_pos (List.all_eq_true.1 hplain),
    List.takeWhile_cons_of_neg (by decide), List.append_nil]

theorem takeLong_name (hname : Argument.ofLong? name = some argument)
    (hplain : (Utf8.encode name).all (· != '='.toUInt8) = true) :
    reading.takeLong (Utf8.encode name) = reading.takeFlag argument := by
  have htake : (Utf8.encode name).takeWhile (· != '='.toUInt8) = Utf8.encode name := by
    rw [← List.append_nil (Utf8.encode name),
      List.takeWhile_append_of_pos (List.all_eq_true.1 hplain), List.takeWhile_nil]
  rw [takeLong]
  simp only [htake, Utf8.decode?_encode, Option.bind_some, hname, List.drop_length]

theorem takeLong_value (hname : Argument.ofLong? name = some argument)
    (hplain : (Utf8.encode name).all (· != '='.toUInt8) = true) (value : Bytes) :
    reading.takeLong (Utf8.encode name ++ '='.toUInt8 :: value) =
      reading.takeAttached argument ⟨value⟩ := by
  rw [takeLong]
  simp only [takeWhile_name hplain, Utf8.decode?_encode, Option.bind_some, hname, List.drop_left]

theorem read_name (hname : Argument.ofLong? name = some argument) (hne : Utf8.encode name ≠ [])
    (hplain : (Utf8.encode name).all (· != '='.toUInt8) = true) :
    reading.read (⟨0x2D :: 0x2D :: Utf8.encode name⟩ :: rest) =
      (reading.takeFlag argument).bind (andRead rest) := by
  rw [read_long hne, takeLong_name hname hplain]

theorem read_value (hname : Argument.ofLong? name = some argument)
    (hplain : (Utf8.encode name).all (· != '='.toUInt8) = true) (value : Bytes) :
    reading.read (⟨0x2D :: 0x2D :: (Utf8.encode name ++ '='.toUInt8 :: value)⟩ :: rest) =
      (reading.takeAttached argument ⟨value⟩).bind (andRead rest) := by
  rw [read_long (by simp), takeLong_value hname hplain]

/-- Letters behind one dash are taken one after the other. -/
theorem read_letters {letter : Char} (hletter : letter ≠ '-') (letters : Text) :
    reading.read (.ofText ('-' :: letter :: letters) :: rest) =
      (reading.takeShort ((letter :: letters).map some)).bind (andRead rest) := by
  have hbytes : Utf8.encode ('-' :: letter :: letters) = 0x2D :: Utf8.encode (letter :: letters) := rfl
  cases hencode : Utf8.encode (letter :: letters) with
  | nil =>
      have hnone := Utf8.decode?_encode (letter :: letters)
      rw [hencode] at hnone
      cases hnone
  | cons byte bytes =>
      have hbyte : byte ≠ 0x2D := by
        rintro rfl
        have hscan := Utf8.scan_encode (letter :: letters)
        rw [hencode, Utf8.scan, Utf8.scanFrom_of_done (c := '-') (by decide)] at hscan
        exact hletter (Option.some.inj (List.cons.inj hscan).1).symm
      rw [Path.ofText, hbytes, hencode, read_short hbyte, ← hencode, Utf8.scan_encode]

/-! ## The end -/

/-- The settings that the arguments read so far ask for. -/
def settings (reading : Reading) : Settings where
  root := reading.root
  check := reading.check
  showDiff := reading.showDiff
  report := reading.report
  verbose := reading.verbose
  quiet := reading.quiet
  colors := reading.colors.getD .auto

/-- The arguments that exclude each other, in the order given. -/
def conflict (reading : Reading) : UsageError :=
  if reading.verboseLast then .conflict .quiet .verbose else .conflict .verbose .quiet

theorem finish_eq (reading : Reading) :
    reading.finish = reading.settle.bind fun settled =>
      if settled.quiet = true ∧ 0 < settled.verbose then .error settled.conflict
      else .ok (.run settled.settings) := by
  rw [finish]
  refine congrArg (Except.bind _) (funext fun settled => ?_)
  split
  · rw [conflict]
    split <;> rfl
  · rfl

/-! ## What is never asked for -/

variable {request : Request}

theorem isModest_of_finish (h : reading.finish = .ok request) : request.IsModest := by
  rw [finish_eq] at h
  cases hsettle : reading.settle with
  | error e =>
      rw [hsettle] at h
      cases h
  | ok settled =>
      rw [hsettle, Except.bind] at h
      split at h
      · cases h
      next hmodest =>
        obtain rfl := Except.ok.inj h
        exact hmodest

/-- An outcome without a request, or with a modest one. -/
def IsModest (outcome : Outcome) : Prop := ∀ request, outcome = .ok (.inr request) → request.IsModest

theorem isModest_takeFlag (reading : Reading) (argument : Argument) :
    IsModest (reading.takeFlag argument) := by
  intro request h
  rw [takeFlag] at h
  cases hsettle : reading.settle with
  | error e =>
      rw [hsettle] at h
      cases h
  | ok settled =>
      rw [hsettle] at h
      cases argument with
      | help | version =>
          cases h
          trivial
      | root | verbose | report | colors => cases h
      | check | showDiff | quiet =>
          simp only [bind, Except.bind] at h
          split at h <;> cases h

theorem isModest_bind {first : Except UsageError Reading} {next : Reading → Outcome}
    (h : ∀ reading, IsModest (next reading)) : IsModest (first.bind next) := by
  intro request hrequest
  cases first with
  | error e => cases hrequest
  | ok reading => exact h reading request hrequest

theorem isModest_error (e : UsageError) : IsModest (.error e) := nofun

theorem isModest_inl (reading : Reading) : IsModest (.ok (.inl reading)) := nofun

theorem isModest_takeAttached (reading : Reading) (argument : Argument) (value : Path) :
    IsModest (reading.takeAttached argument value) := by
  unfold takeAttached
  split
  · exact isModest_bind fun _ => isModest_bind isModest_inl
  · exact isModest_bind fun _ => isModest_bind isModest_inl
  · exact isModest_error _

theorem isModest_takeLong (reading : Reading) (bytes : Bytes) :
    IsModest (reading.takeLong bytes) := by
  unfold takeLong
  dsimp only
  split
  · exact isModest_error _
  · split
    · exact isModest_takeFlag reading _
    · exact isModest_takeAttached reading _ _

theorem isModest_takeShort (reading : Reading) (letters : List (Option Char)) :
    IsModest (reading.takeShort letters) := by
  induction letters generalizing reading with
  | nil => exact isModest_inl reading
  | cons letter rest ih =>
      cases letter with
      | none => exact isModest_error _
      | some c =>
          rw [takeShort]
          split
          · exact isModest_error _
          next argument _ =>
            intro request h
            cases hflag : reading.takeFlag argument with
            | error e =>
                rw [hflag] at h
                cases h
            | ok outcome =>
                rw [hflag] at h
                cases outcome with
                | inl next => exact ih next request h
                | inr other =>
                    cases h
                    exact isModest_takeFlag reading argument _ hflag

theorem isModest_takeRoot (reading : Reading) (path : Path) : IsModest (reading.takeRoot path) := by
  unfold takeRoot
  split
  · exact isModest_error _
  · exact isModest_bind fun _ => isModest_inl _

theorem isModest_takePlain (reading : Reading) (path : Path) : IsModest (reading.takePlain path) := by
  unfold takePlain
  split
  · exact isModest_inl _
  · exact isModest_inl _
  · exact isModest_takeRoot reading path

/-- The rest of the arguments is reached without a request, or there is a modest one. -/
theorem isModest_of_bind {outcome : Outcome} {next : Reading ⊕ Request → Except UsageError Request}
    (houtcome : IsModest outcome) (hinr : ∀ other, next (.inr other) = .ok other)
    (hinl : ∀ reading, next (.inl reading) = .ok request → request.IsModest)
    (h : outcome.bind next = .ok request) : request.IsModest := by
  cases outcome with
  | error e => cases h
  | ok result =>
      cases result with
      | inl reading => exact hinl reading h
      | inr other =>
          obtain rfl := Except.ok.inj ((hinr other).symm.trans h)
          exact houtcome _ rfl

theorem isModest_of_readPlain {paths : List Path} (h : reading.readPlain paths = .ok request) :
    request.IsModest := by
  induction paths generalizing reading with
  | nil => exact isModest_of_finish h
  | cons path rest ih =>
      rw [readPlain] at h
      exact isModest_of_bind (isModest_takeRoot reading path) (fun _ => rfl) (fun _ => ih) h

/-- No arguments ask for a run that is quiet and verbose at once. -/
theorem isModest_of_read {paths : List Path} (h : reading.read paths = .ok request) :
    request.IsModest := by
  induction paths generalizing reading with
  | nil => exact isModest_of_finish h
  | cons path rest ih =>
      rw [read] at h
      split at h
      · exact isModest_of_readPlain h
      · exact isModest_of_bind (isModest_takeLong reading _) (fun _ => rfl) (fun _ => ih) h
      · exact isModest_of_bind (isModest_takeShort reading _) (fun _ => rfl) (fun _ => ih) h
      · exact isModest_of_bind (isModest_takePlain reading path) (fun _ => rfl) (fun _ => ih) h

end Reading

end LicenseStamp.Command
