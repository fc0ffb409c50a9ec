/-
Families of tests. The tests of a family are numbered: a family and an index make the name of a
test, and a test has a source file and maybe an input file in the tests directory.
-/
import PassCheck.Pass.Wildcard

namespace PassCheck.Family

/-- The extension of source files. -/
def sourceExtension : String := ".rkt"

/-- The source file of a test. -/
def sourcePath (test testsDir : String) : String := Path.join testsDir (test ++ sourceExtension)

/-- The input file of a test. -/
def inputPath (test testsDir : String) : String := Path.join testsDir (test ++ ".in")

/-- The name of the test of an index. -/
def testName (family : String) (index : Datum) : Option String :=
  index.display?.map fun i => family ++ "_" ++ i

/-- The names of the tests of a list of indices. -/
def testNames (family : String) : List Datum → Except Failure (List String)
  | [] => .ok []
  | i :: is => do
    let t ← written (testName family i)
    let ts ← testNames family is
    return t :: ts

/-- The names of the tests of any indices that can be visited. -/
def expand (family : String) (indices : Datum) : Except Failure (List String) :=
  match indices.visit? with
  | none => .error .badType
  | some is => testNames family is

/-- The part of a source file's name where its index stands: behind the family and one more
character, up to the extension. -/
def indexPart (family : String) (name : List Char) : List Char :=
  (name.take (name.length - sourceExtension.length)).drop (family.length + 1)

/-- The index of a source file, when the part where it stands looks like digits. Digits that have
no value are refused. -/
def indexOf (family : String) (path : String) : Except Failure (Option Int) :=
  let part := indexPart family (Path.base path).toList
  if !part.isEmpty && part.all Text.isDigitLike then
    match Integer.ofText? (String.ofList part) with
    | some n => .ok (some n)
    | none => .error (.badValue none)
  else .ok none

/-- The indices of a list of source files. -/
def indicesOf (family : String) : List String → Except Failure (List Int)
  | [] => .ok []
  | path :: paths => do
    let i ← indexOf family path
    let is ← indicesOf family paths
    return i.toList ++ is

/-- The pattern of the source files of a family. -/
def pattern (family testsDir : String) : String :=
  Path.join testsDir (family ++ "_*" ++ sourceExtension)

/-- The indices of the tests that are there, in increasing order. -/
def discover (files : Files) (family testsDir : String) : Except Failure (List Int) := do
  let paths ← files.expand (pattern family testsDir)
  let is ← indicesOf family paths
  return is.mergeSort fun a b => a ≤ b

end PassCheck.Family
