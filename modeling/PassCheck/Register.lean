/-
The registers of the target machine and their colours. Registers that the allocator hands out are
numbered from zero; the result register and the flag pseudo-register have the reserved colour.
-/
import PassCheck.Datum.Equality
import PassCheck.Failure

namespace PassCheck.Register

/-! ## Catalog -/

/-- Registers a callee may overwrite. -/
def callerSave : List String := ["rax", "rcx", "rdx", "rsi", "rdi", "r8", "r9", "r10", "r11"]

/-- Registers a callee must keep. -/
def calleeSave : List String := ["rsp", "rbp", "rbx", "r12", "r13", "r14", "r15"]

/-- Registers that the allocator never hands out. -/
def reserved : List String := ["rax", "r11", "r15", "rsp", "rbp", "__flag"]

/-- Registers for general use. -/
def general : List String :=
  ["rcx", "rdx", "rsi", "rdi", "r8", "r9", "r10", "rbx", "r12", "r13", "r14"]

/-- Registers the allocator hands out, in the order of their colours. -/
def allocatable : List String := general.filter fun r => !reserved.contains r

/-- Registers of the arguments of a call, in order. -/
def arguments : List String := ["rdi", "rsi", "rdx", "rcx", "r8", "r9"]

/-- All registers. -/
def all : List String := general ++ reserved

/-- Allocatable registers a callee may overwrite. -/
def callerSaveAllocatable : List String :=
  callerSave.filter fun r => !reserved.contains r && allocatable.contains r

/-- Allocatable registers a callee must keep. -/
def calleeSaveAllocatable : List String :=
  calleeSave.filter fun r => !reserved.contains r && allocatable.contains r

/-- Byte registers and the full registers they are part of. -/
def byteToFull : List (String × String) :=
  [("ah", "rax"), ("al", "rax"), ("bh", "rbx"), ("bl", "rbx"),
    ("ch", "rcx"), ("cl", "rcx"), ("dh", "rdx"), ("dl", "rdx")]

/-- Registers with the reserved colour. -/
def sentinels : List String := ["rax", "__flag"]

/-- The colour of registers that are never handed out. -/
def reservedColor : Int := -1

/-- The colour of every coloured register. -/
def colors : List (String × Int) :=
  sentinels.map (fun r => (r, reservedColor)) ++
    allocatable.zipIdx.map fun (r, i) => (r, (i : Int))

/-! ## Queries -/

/-- The colour of a register. -/
def colorOf (r : Datum) : Except Failure Int :=
  if !r.hashable then .error .badType
  else
    match r with
    | .str s =>
      match colors.lookup s with
      | some c => .ok c
      | none => .error (.report (.lookup r))
    | _ => .error (.report (.lookup r))

/-- Whether a number lies between zero and `n`, exclusive. Only numbers can be compared. -/
def inRange (n : Nat) (d : Datum) : Except Failure Bool :=
  match d.number? with
  | none => .error .badType
  | some x => .ok (Number.atMost (.int 0) x && x.below (.int n))

/-- The register at an index. An index must be an integer. -/
def nth (registers : List String) (d : Datum) : Except Failure String :=
  match d.toInt? with
  | none => .error .badType
  | some i => .ok (registers.getD i.toNat "")

/-- The register at an index that must lie within the list. -/
def pick (registers : List String) (d : Datum) : Except Failure String := do
  if ← inRange registers.length d then nth registers d
  else throw (.report (.lookup d))

/-- The register of a colour. -/
def ofColor (c : Datum) : Except Failure String := pick allocatable c

/-- The register of an argument. -/
def argument (i : Datum) : Except Failure String := pick arguments i

/-- Whether a colour belongs to a register that a callee must keep. -/
def isCalleeColor (c : Datum) : Except Failure Bool := do
  if ← inRange allocatable.length c then
    let r ← nth allocatable c
    return calleeSave.contains r
  else return false

/-- Giving a register another colour: the table cannot be changed. -/
def recolor (_register _color : Datum) : Except Failure Unit := .error .badType

end PassCheck.Register
