/-
Stock routines beside tracing. All of them only add to standard output, whatever stands there; and
they reach the tracer of the world only by tracing.
-/
import PassCheck.Proofs.Lint.Rewrite
import PassCheck.Proofs.World.Tracing
import PassCheck.Recipe

namespace PassCheck

namespace Lint

end Lint

namespace Recipe

theorem onlyPrints_print (line : Datum) (args : List Datum) :
    Job.OnlyPrints ((Recipe.print line).routine args) := by
  show Job.OnlyPrints (Routine.unary _ args)
  unfold Routine.unary
  split
  · refine (Job.computes_lift _).onlyPrints.bind fun text => ?_
    exact (Job.onlyPrints_print text).bind fun _ => Job.onlyPrints_pure _
  · exact (Job.computes_lift (.error _)).onlyPrints

end Recipe

end PassCheck
