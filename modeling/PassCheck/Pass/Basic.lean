/-
Passes: a named transform, with the interpreter of its output language if there is one.
-/
import PassCheck.Routine

namespace PassCheck

/-- A pass. Its routines may be given in any form; they are run as `Routine`s. -/
structure Pass (ρ : Type) where
  name : String
  transform : ρ
  interpreter : Option ρ
deriving Inhabited

namespace Pass

/-- The same pass with its routines in another form. -/
def map {ρ σ : Type} (f : ρ → σ) (p : Pass ρ) : Pass σ :=
  ⟨p.name, f p.transform, p.interpreter.map f⟩

/-- The passes of the given names. Every name must be a text that leads to a transform; only then is
its interpreter asked for, which may be absent. -/
def ofNames {ρ : Type} (transform? interpreter? : String → Job (Option ρ)) :
    List Datum → Job (List (Pass ρ))
  | [] => return []
  | .str name :: names => do
    match ← transform? name with
    | none => throw (.plain ("error in passes_from_compiler, compiler has no pass: " ++ name))
    | some transform =>
      let interpreter ← interpreter? name
      let passes ← ofNames transform? interpreter? names
      return ⟨name, transform, interpreter⟩ :: passes
  | _ :: _ => throw .badType

end Pass

end PassCheck
