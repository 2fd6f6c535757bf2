import LicenseStamp.Text.Basic

/-! # Output modes and colours

How much a run tells, and whether it does so in colour.
-/

namespace LicenseStamp

/-- How much a run tells. -/
inductive OutputMode where
  /-- The report only. -/
  | normal
  /-- Errors only. -/
  | quiet
  /-- The report, the files as they are met, and the counters. -/
  | verbose
  deriving Repr, DecidableEq

/-- A line that only a verbose run prints. -/
def OutputMode.verboseLine (mode : OutputMode) (line : Text) : Text :=
  if mode = .verbose then line ++ ['\n'] else []

/-- When to print in colour. -/
inductive ColorMode where
  /-- When the stream is a terminal. -/
  | auto
  /-- In no case. -/
  | never
  /-- In every case. -/
  | always
  deriving Repr, DecidableEq

namespace ColorMode

/-- Whether to print in colour on a stream that is a terminal or not. -/
def isOn (mode : ColorMode) (terminal : Bool) : Bool :=
  match mode with
  | .auto => terminal
  | .never => false
  | .always => true

/-- The name of a colour mode. -/
def name : ColorMode → Text
  | .auto => "auto".toList
  | .never => "never".toList
  | .always => "always".toList

/-- The colour mode with a name, letter for letter. -/
def ofName? (text : Text) : Option ColorMode :=
  [ColorMode.auto, .never, .always].find? fun mode => mode.name = text

end ColorMode

/-- The colours of printed text. -/
inductive Color where
  /-- For lines gone. -/
  | red
  /-- For lines come, and for good news. -/
  | green
  /-- For banners. -/
  | yellow
  deriving Repr, DecidableEq

/-- The terminal code of a colour. -/
def Color.code : Color → Nat
  | .red => 31
  | .green => 32
  | .yellow => 33

/-- The control sequence of a terminal code. -/
def escapeCode (code : Nat) : Text := '\x1b' :: '[' :: Text.ofNat code ++ ['m']

/-- A text in a colour, if colours are on; the default colour follows it. -/
def Color.paint (color : Color) (on : Bool) (text : Text) : Text :=
  if on then escapeCode color.code ++ text ++ escapeCode 39 else text

end LicenseStamp
