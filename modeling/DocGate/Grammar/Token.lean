import DocGate.Text.Word

/-!
# Dollar tokens

In the store's language a name after a dollar sign is an operator or refers to
a field, and a name after several dollar signs is a variable.  `Token.ofText`
finds all of them in a text: each run of dollar signs that a word character follows,
with the run of word characters that it is followed by.  Other characters, and
dollar signs that no word character follows, belong to no token.

The scan reads the text once from left to right.  It remembers how many dollar
signs it has just read and the name that it is reading.
-/

namespace DocGate

/-- A name marked by dollar signs. -/
inductive Token
  /-- A name after one dollar sign: an operator, or a reference to a field. -/
  | dollar (name : String)
  /-- A name after two or more dollar signs: a variable. -/
  | variable (name : String)
  deriving DecidableEq, Repr

namespace Token

/-- The token of a name after so many dollar signs. -/
def ofRun (dollars : Nat) (name : List Char) : Token :=
  if 1 < dollars then .variable (String.ofList name) else .dollar (String.ofList name)

mutual

/-- The tokens of the text after `dollars` dollar signs in a row. -/
def scan (dollars : Nat) : List Char → List Token
  | [] => []
  | c :: rest =>
    if c = '$' then scan (dollars + 1) rest
    else if 0 < dollars ∧ Text.isWord c then scanName dollars [c] rest
    else scan 0 rest
termination_by structural cs => cs

/-- The tokens of the text within a name that follows `dollars` dollar signs;
`read` is the part of the name read so far, last character first. -/
def scanName (dollars : Nat) (read : List Char) : List Char → List Token
  | [] => [ofRun dollars read.reverse]
  | c :: rest =>
    if Text.isWord c then scanName dollars (c :: read) rest
    else if c = '$' then ofRun dollars read.reverse :: scan 1 rest
    else ofRun dollars read.reverse :: scan 0 rest
termination_by structural cs => cs

end

/-- The dollar tokens of a text, in order. -/
def ofText (text : String) : List Token :=
  scan 0 text.toList

example : scan 0 "$a$$b $ $$ c$é_1".toList =
    [.dollar "a", .variable "b", .dollar "é_1"] := by decide +kernel

end Token

end DocGate
