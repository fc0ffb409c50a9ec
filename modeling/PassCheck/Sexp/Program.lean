/-
Program files: lines that start with `#lang` are dropped, and the rest holds exactly one value.
-/
import PassCheck.Sexp.Reader
import PassCheck.Text.Lines

namespace PassCheck.Sexp

/-- Whether a line names the language of its file. -/
def isLangLine (line : List Char) : Bool := ['#', 'l', 'a', 'n', 'g'].isPrefixOf line

/-- The text of a program file without its language lines. -/
def dropLangLines (text : List Char) : List Char :=
  ((Text.lines text).filter fun l => !isLangLine l).flatten

/-- A program: a tag, information about the program and its body. -/
def program (info body : Datum) : Datum := .tuple [.str "Program", info, body]

/-- Reads the text of the program file at `path`; its line ends are LF. -/
def readProgramText (path : String) (text : List Char) : Except ReadError Datum :=
  match readAll (dropLangLines text) with
  | .error e => .error e
  | .ok [d] => .ok (program (.tuple []) d)
  | .ok ds => .error (.programCount path ds.length)

end PassCheck.Sexp
