/-
Reading values from tokens. The reader walks over the tokens once and keeps the open brackets and
pending quote marks on a stack of frames; a finished value is plugged into the innermost frame.
-/
import PassCheck.Datum.Basic
import PassCheck.Number.Integer
import PassCheck.Sexp.Token

namespace PassCheck.Sexp

/-- Why a text cannot be read. -/
inductive ReadError where
  /-- The text ends where a value must follow. -/
  | unexpectedEnd
  /-- The text ends inside a bracket. -/
  | missing (b : Bracket)
  /-- A bracket is closed by one of the other kind. -/
  | mismatch (expected found : Bracket)
  /-- A bracket is closed that was never opened. -/
  | unbalanced (b : Bracket)
  /-- An integer has too many digits. -/
  | longInteger (digits : Nat)
  /-- Not exactly one value. -/
  | count (found : Nat)
  /-- A program file does not hold exactly one value. -/
  | programCount (path : String) (found : Nat)
deriving DecidableEq, Inhabited

/-- The value of an atom: a boolean, an integer or a symbol. -/
def atomValue (cs : List Char) : Except ReadError Datum :=
  if cs = ['#', 't'] then .ok (.bool true)
  else if cs = ['#', 'f'] then .ok (.bool false)
  else if Integer.isPlain cs then
    match Integer.ofPlain? cs with
    | some n => .ok (.int n)
    | none => .error (.longInteger (Integer.splitSign cs).2.length)
  else .ok (.str (String.ofList cs))

/-- A quoted value. -/
def quoteForm (d : Datum) : Datum := .tuple [.str "quote", d]

/-- What waits for the next value: an open bracket with the values read so far, the last one first,
or a quote mark. -/
inductive Frame where
  | group (b : Bracket) (itemsRev : List Datum)
  | quote

/-- What becomes of a finished value: it is the whole value, or frames are still open. -/
inductive Plugged where
  | done (d : Datum)
  | more (frames : List Frame)

/-- Plugs a finished value into the innermost frame. -/
def plug (d : Datum) : List Frame → Plugged
  | [] => .done d
  | .quote :: frames => plug (quoteForm d) frames
  | .group b items :: frames => .more (.group b (d :: items) :: frames)

/-- The error of a text that ends within the given frames. -/
def endError : List Frame → ReadError
  | .group b _ :: _ => .missing b
  | _ => .unexpectedEnd

/-- Reads one value from the tokens, within the given frames; the tokens after it remain. -/
def readWithin : List Token → List Frame → Except ReadError (Datum × List Token)
  | [], frames => .error (endError frames)
  | .opening b :: ts, frames => readWithin ts (.group b [] :: frames)
  | .quote :: ts, frames => readWithin ts (.quote :: frames)
  | .closing b :: ts, .group b' items :: frames =>
    if b = b' then
      match plug (.tuple items.reverse) frames with
      | .done d => .ok (d, ts)
      | .more frames => readWithin ts frames
    else .error (.mismatch b' b)
  | .closing b :: _, _ => .error (.unbalanced b)
  | .atom cs :: ts, frames =>
    match atomValue cs with
    | .error e => .error e
    | .ok v =>
      match plug v frames with
      | .done d => .ok (d, ts)
      | .more frames => readWithin ts frames

/-- Reads one value from the tokens. -/
def readOne (ts : List Token) : Except ReadError (Datum × List Token) := readWithin ts []

/-- Reads the value that starts at a position of the tokens, and gives the position after it. -/
def readAt (ts : List Token) (pos : Nat) : Except ReadError (Datum × Nat) :=
  match readOne (ts.drop pos) with
  | .error e => .error e
  | .ok (d, rest) => .ok (d, ts.length - rest.length)

/-- A value takes at least one token. -/
theorem length_lt_of_readWithin {ts : List Token} {frames : List Frame} {d : Datum}
    {rest : List Token} (h : readWithin ts frames = .ok (d, rest)) : rest.length < ts.length := by
  induction ts generalizing frames with
  | nil => simp [readWithin] at h
  | cons t ts ih =>
    rw [List.length_cons]
    unfold readWithin at h
    split at h
    · contradiction
    · rename_i he; cases he; exact Nat.lt_succ_of_lt (ih h)
    · rename_i he; cases he; exact Nat.lt_succ_of_lt (ih h)
    · rename_i he
      cases he
      split at h
      · split at h
        · cases h; exact Nat.lt_succ_self _
        · exact Nat.lt_succ_of_lt (ih h)
      · cases h
    · cases h
    · rename_i he
      cases he
      split at h
      · cases h
      · split at h
        · cases h; exact Nat.lt_succ_self _
        · exact Nat.lt_succ_of_lt (ih h)

/-- Reads all values of the tokens. -/
def readTokens (ts : List Token) : Except ReadError (List Datum) :=
  match ts with
  | [] => .ok []
  | t :: ts =>
    match _h : readOne (t :: ts) with
    | .error e => .error e
    | .ok (d, rest) =>
      match readTokens rest with
      | .error e => .error e
      | .ok ds => .ok (d :: ds)
termination_by ts.length
decreasing_by exact length_lt_of_readWithin _h

/-- Reads all values of a text. -/
def readAll (text : List Char) : Except ReadError (List Datum) := readTokens (tokenize text)

/-- Reads a text that holds exactly one value. -/
def readSingle (text : List Char) : Except ReadError Datum :=
  match readAll text with
  | .error e => .error e
  | .ok [d] => .ok d
  | .ok ds => .error (.count ds.length)

end PassCheck.Sexp
