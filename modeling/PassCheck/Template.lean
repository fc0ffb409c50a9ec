/-
Templates: texts with places for numbers. A place is a percent sign, flags, a width, a precision, a
size mark and the letter of a form; two percent signs stand for one. An asterisk in place of a width
or a precision takes the number itself.
-/
import PassCheck.Failure

namespace PassCheck.Template

/-! ## Forms -/

/-- The forms a number can be written in. -/
inductive Form where
  /-- As a value. -/
  | value
  /-- In decimal digits. -/
  | decimal
  /-- In digits of another base, which only integers have. -/
  | digits
  /-- As a floating-point number. -/
  | floating
  /-- As the character of that code. -/
  | character
deriving DecidableEq, Inhabited

/-- The form of a letter. -/
def Form.ofLetter? (c : Char) : Option Form :=
  if "sra".toList.contains c then some .value
  else if "diu".toList.contains c then some .decimal
  else if "oxX".toList.contains c then some .digits
  else if "eEfFgG".toList.contains c then some .floating
  else if c == 'c' then some .character
  else none

/-- The largest width. -/
def widthLimit : Nat := Nat.pow 2 63 - 1

/-- The largest width for which there is memory. -/
def memoryLimit : Nat := 32000000000

/-- The largest precision that can be written. -/
def precisionLimit : Nat := Nat.pow 2 31 - 1

/-- The largest precision of an integer. -/
def digitPrecisionLimit : Nat := precisionLimit - 3

/-- The integer below a number in size; a number that is none has no such integer. -/
def wholePart : Number → Except Failure Int
  | .int n => .ok n
  | .float (.nan _) => .error (.badValue none)
  | .float (.infinite _) => .error .overflow
  | .float .negZero => .ok 0
  | .float (.exact q) => .ok (q.num.tdiv q.den)

/-- Checks that an integer can be written with a precision. -/
def checkDigits (precision : Nat) : Except Failure Unit :=
  if digitPrecisionLimit < precision then .error .overflow else .ok ()

/-- Checks that a number can be written in a form. -/
def Form.check (form : Form) (precision : Nat) (x : Number) : Except Failure Unit :=
  match form, x with
  | .value, .int n => (written (Integer.text? n)).map fun _ => ()
  | .value, .float _ => .ok ()
  | .decimal, x => do
    let n ← wholePart x
    checkDigits precision
    let _ ← written (Integer.text? n)
  | .digits, .int _ => checkDigits precision
  | .digits, .float _ => .error .badType
  | .floating, x => if x.toFloating?.isSome then .ok () else .error .overflow
  | .character, .int n => if 0 ≤ n && n ≤ 0x10ffff then .ok () else .error .overflow
  | .character, .float _ => .error .badType

/-! ## Places -/

/-- A reader of a template: what is left of it, and whether the number was taken already. -/
structure State where
  rest : List Char
  taken : Bool
deriving DecidableEq, Inhabited

/-- Takes the number. There is only one. -/
def State.take (s : State) : Except Failure State :=
  if s.taken then .error .badType else .ok { s with taken := true }

/-- Checks a number that stands for a width or a precision: an integer of the machine. -/
def checkMeasure (limit : Nat) : Number → Except Failure Unit
  | .float _ => .error .badType
  | .int n => if -(limit : Int) - 1 ≤ n && n ≤ limit then .ok () else .error .overflow

/-- Reads a width or a precision: an asterisk, or digits. -/
def readMeasure (limit : Nat) (x : Number) (s : State) : Except Failure (Nat × State) :=
  match s.rest with
  | '*' :: cs => do
    let s ← s.take
    checkMeasure limit x
    let n := match x with
      | .int n => n.toNat
      | .float _ => 0
    return (n, { s with rest := cs })
  | cs =>
    let n := Integer.ofDigits ((cs.takeWhile Char.isDigit).filterMap Text.digitValue?)
    if limit < n then .error (.badValue none)
    else .ok (n, { s with rest := cs.dropWhile Char.isDigit })

/-- Reads a precision, which follows a point. -/
def readPrecision (x : Number) (s : State) : Except Failure (Nat × State) :=
  match s.rest with
  | '.' :: cs => readMeasure precisionLimit x { s with rest := cs }
  | _ => .ok (0, s)

/-- A flag. -/
def isFlag (c : Char) : Bool := "-+ #0".toList.contains c

/-- Drops a size mark, which has no meaning. -/
def dropSize : List Char → List Char
  | 'h' :: cs | 'l' :: cs | 'L' :: cs => cs
  | cs => cs

/-- Reads the place after a percent sign and writes the number there. -/
def fillPlace (x : Number) (s : State) : Except Failure State :=
  match s.rest with
  | '%' :: cs => .ok { s with rest := cs }
  -- a name asks for a collection of numbers
  | '(' :: _ => .error .badType
  | cs => do
    let (width, s) ← readMeasure widthLimit x { s with rest := cs.dropWhile isFlag }
    let (precision, s) ← readPrecision x s
    match dropSize s.rest with
    | [] => throw (.badValue none)
    | letter :: cs =>
      let s ← s.take
      match Form.ofLetter? letter with
      | none => throw (.badValue none)
      | some form =>
        form.check precision x
        if memoryLimit < width then throw .outOfMemory
        return { s with rest := cs }

/-- Fills in the places that are left. The fuel is the number of characters. -/
def fillAll (x : Number) : (fuel : Nat) → State → Except Failure State
  | 0, s => .ok s
  | fuel + 1, s =>
    match s.rest.dropWhile (· != '%') with
    | [] => .ok { s with rest := [] }
    | _ :: cs => do
      let s ← fillPlace x { s with rest := cs }
      fillAll x fuel s

/-- Checks that one number fills in a template: every place takes it, and one does. -/
def check (template : String) (x : Number) : Except Failure Unit := do
  let s ← fillAll x template.length ⟨template.toList, false⟩
  if s.taken then return () else throw .badType

end PassCheck.Template
