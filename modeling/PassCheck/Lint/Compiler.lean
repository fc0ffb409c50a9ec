/-
The compiler for the tiny language, as the modules that the command line offers.
-/
import PassCheck.Build.Load
import PassCheck.Recipe

namespace PassCheck.Lint

/-- The passes of the compiler. The output of the last one is assembly, which has no interpreter. -/
def passes : List (Pass Recipe) :=
  [⟨"shrink", .shrink, some .interpret⟩, ⟨"fold", .fold, some .interpret⟩,
    ⟨"codegen", .codegen, none⟩]

/-- The compiler, given by its passes, ready to run. -/
def compiler : Compiler Routine := ⟨[("passes", .passes (passes.map (Pass.map Recipe.routine)))]⟩

/-- The modules a command can load a compiler from. -/
def modules : Modules Routine := [("lint", [("Compiler", .object compiler)]), Load.reportModule]

/-- Loads a compiler of `modules` by its name. -/
def load (spec : String) : Job (List (Pass Routine)) := Load.runnable ⟨id, id⟩ modules spec

end PassCheck.Lint
