import LicenseStamp.Text.LowerCase

/-! # Header styles

The two forms of the license header: one notice, wrapped in the comment syntax that
a file's extension asks for.
-/

namespace LicenseStamp

/-- The comment syntax of a header. -/
inductive HeaderStyle where
  /-- An HTML comment, for markup, documents and style sheets. -/
  | html
  /-- A block comment, for scripts. -/
  | code
  deriving Repr, DecidableEq

namespace HeaderStyle

/-- The sentence whose presence means that a file carries the header already. -/
def marker : Text := "Licensed under the Apache License, Version 2.0".toList

/-- The lines of the notice, without comment syntax. -/
def notice : List Text :=
  ["Copyright 2025 STARGA Inc.".toList,
    [],
    marker ++ " (the \"License\");".toList,
    "you may not use this file except in compliance with the License.".toList,
    "You may obtain a copy of the License at:".toList,
    [],
    "    http://www.apache.org/licenses/LICENSE-2.0".toList,
    [],
    "Unless required by applicable law or agreed to in writing, software".toList,
    "distributed under the License is distributed on an \"AS IS\" BASIS,".toList,
    "WITHOUT WARRANTIES OR CONDITIONS OF ANY KIND, either express or implied.".toList,
    "See the License for the specific language governing permissions and".toList,
    "limitations under the License.".toList]

/-- A line inside a block comment, with no blank after the star of an empty line. -/
def starred (line : Text) : Text :=
  if line.isEmpty then " *".toList else " * ".toList ++ line

/-- The lines of the header in one style. -/
def headerLines : HeaderStyle → List Text
  | .html => "<!--".toList :: notice ++ ["-->".toList]
  | .code => "/*".toList :: notice.map starred ++ [" */".toList]

/-- The header in one style; every line of it is ended by a line feed. -/
def header (style : HeaderStyle) : Text := style.headerLines.flatMap (· ++ ['\n'])

/-- The extensions of the files that take headers of one style. -/
def extensions : HeaderStyle → List Text
  | .html => ["njk".toList, "html".toList, "md".toList, "css".toList]
  | .code => ["js".toList, "mjs".toList, "cjs".toList]

/-- The style for an extension without its dot, upper and lower case ASCII letters being
    one. Other extensions never receive a header. -/
def ofExtension? (extension : Text) : Option HeaderStyle :=
  let plain := Text.lowerAscii extension
  if extensions .html |>.contains plain then some .html
  else if extensions .code |>.contains plain then some .code
  else none

/-- The name of a style in reports. -/
def name : HeaderStyle → Text
  | .html => "html".toList
  | .code => "code".toList

end HeaderStyle

/-- Whether a text carries the license marker, letter for letter and anywhere. -/
def hasMarker (text : Text) : Bool := Text.contains HeaderStyle.marker text

end LicenseStamp
