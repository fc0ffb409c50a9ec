/-
Compilers by their parts: a list of passes, names of passes, a table of interpreters, methods, each of
them present or absent. Nothing of such a compiler is run to find its parts or to make it from its
class, so its passes are a matter of the parts alone: those in the list; or one for each name, if every
name leads to a transform; or none.
-/
import PassCheck.Build.Load
import Mathlib.Data.List.Basic
import Mathlib.Data.Option.Basic

namespace PassCheck

variable {ρ : Type}

theorem lookup_map_snd {α β : Type} (f : α → β) (l : List (String × α)) (name : String) :
    (l.map fun e => (e.1, f e.2)).lookup name = (l.lookup name).map f := by
  induction l with
  | nil => rfl
  | cons e l ih =>
    rw [List.map_cons, List.lookup_cons, List.lookup_cons]
    split
    · rfl
    · exact ih

theorem lookup_eq_none_of_forall {α : Type} {l : List (String × α)} {name : String}
    (h : ∀ e ∈ l, e.1 ≠ name) : l.lookup name = none :=
  List.lookup_eq_none_iff.2 fun e he => bne_iff_ne.2 (h e he).symm

theorem mem_of_lookup {α : Type} {l : List (String × α)} {name : String} {a : α}
    (h : l.lookup name = some a) : (name, a) ∈ l := by
  obtain ⟨front, rest, rfl, -⟩ := List.lookup_eq_some_iff.1 h
  exact List.mem_append_right front List.mem_cons_self

/-! ## Compilers -/

/-- A compiler by its parts. A method may be there and yet be no routine. -/
structure Parts (ρ : Type) where
  passes : Option (List (Pass ρ))
  names : Option (List String)
  interpreters : Option (List (String × ρ))
  methods : List (String × Option ρ)

namespace Parts

/-- A method as an attribute. -/
def ofMethod : Option ρ → Attribute ρ
  | some r => .routine r
  | none => .value .null

/-- What a compiler has besides its methods. -/
def others (p : Parts ρ) : List (String × Attribute ρ) :=
  (p.passes.map fun ps => ("passes", .passes ps)).toList ++
  (p.names.map fun ns => ("pass_names", .value (.list (ns.map .str)))).toList ++
  (p.interpreters.map fun table => ("interp_dict", .interpreters table)).toList

/-- The compiler of the parts. -/
def compiler (p : Parts ρ) : Compiler ρ :=
  ⟨(p.methods.map fun m => (m.1, ofMethod m.2)) ++ p.others⟩

/-- The names under which a method would be another part of the compiler, or would take part in making
an object or in finding its attributes. -/
def reserved : List String :=
  ["passes", "pass_names", "interp_dict", "__new__", "__init__", "__getattribute__", "__getattr__",
    "__class__", "__dict__"]

/-- Methods that are no more than that. -/
def Plain (p : Parts ρ) : Prop := ∀ m ∈ p.methods, m.1 ∉ reserved

instance (p : Parts ρ) : Decidable p.Plain :=
  inferInstanceAs (Decidable (∀ m ∈ p.methods, m.1 ∉ reserved))

variable {p : Parts ρ} {name : String}

theorem own?_eq (p : Parts ρ) (name : String) : p.compiler.own? name =
    ((p.methods.lookup name).map ofMethod).or (p.others.lookup name) := by
  rw [Compiler.own?, compiler, List.lookup_append, lookup_map_snd]

theorem Plain.own?_of_reserved (h : p.Plain) (hname : name ∈ reserved) :
    p.compiler.own? name = p.others.lookup name := by
  have hnone : p.methods.lookup name = none :=
    lookup_eq_none_of_forall fun m hm he => h m hm (he ▸ hname)
  rw [own?_eq, hnone]; rfl

theorem lookup_others (p : Parts ρ) : p.others.lookup "passes" = p.passes.map .passes ∧
    p.others.lookup "pass_names" = p.names.map (fun ns => .value (.list (ns.map .str))) ∧
    p.others.lookup "interp_dict" = p.interpreters.map .interpreters := by
  unfold others
  cases p.passes <;> cases p.names <;> cases p.interpreters <;> exact ⟨rfl, rfl, rfl⟩

theorem lookup_others_eq_none (p : Parts ρ)
    (h : name ≠ "passes" ∧ name ≠ "pass_names" ∧ name ≠ "interp_dict") :
    p.others.lookup name = none := by
  refine lookup_eq_none_of_forall fun e he heq => ?_
  simp only [others, List.mem_append, Option.mem_toList, Option.map_eq_some_iff] at he
  obtain (⟨_, -, rfl⟩ | ⟨_, -, rfl⟩) | ⟨_, -, rfl⟩ := he
  · exact h.1 heq.symm
  · exact h.2.1 heq.symm
  · exact h.2.2 heq.symm

theorem Plain.own?_hook (h : p.Plain)
    (hname : name ∈ ["__new__", "__init__", "__getattribute__", "__getattr__"]) :
    p.compiler.own? name = none := by
  have hreserved : name ∈ reserved := by revert name; decide
  rw [h.own?_of_reserved hreserved]
  refine lookup_others_eq_none p ?_
  revert name; decide

end Parts

/-- What a module offers: a compiler, or a class of compilers. -/
inductive Offer (ρ : Type) where
  | object (p : Parts ρ)
  | kind (p : Parts ρ)

namespace Offer

/-- The parts of the compiler. -/
def parts : Offer ρ → Parts ρ
  | .object p | .kind p => p

/-- What the module offers. -/
def toExport : Offer ρ → Export ρ
  | .object p => .object p.compiler
  | .kind p => .kind p.compiler

/-- The compiler that passes are asked of. -/
def loaded : Offer ρ → Export ρ
  | .object p => .object p.compiler
  | .kind p => .made p.compiler

/-- What the compiler has under a name. -/
def attribute? (k : Keeping ρ) : Offer ρ → String → Option (Attribute ρ)
  | .object p, name => p.compiler.objectAttribute? name
  | .kind p, name => p.compiler.madeAttribute? k name

/-- The transform of the pass of a name: the method of this name. Without one it is what else the
compiler has under the name. -/
def transform? (k : Keeping ρ) (o : Offer ρ) (name : String) : Option ρ :=
  match o.parts.methods.lookup name with
  | some method => method
  | none => (o.attribute? k name).bind (·.transform? k)

/-- The interpreter of the pass of a name. -/
def interpreter? (o : Offer ρ) (name : String) : Option ρ :=
  o.parts.interpreters.bind fun table => table.lookup name

/-- The pass of a name. -/
def pass? (k : Keeping ρ) (o : Offer ρ) (name : String) : Option (Pass ρ) :=
  (o.transform? k name).map fun transform => ⟨name, transform, o.interpreter? name⟩

/-- The passes of a compiler: those in its list of passes, or else one for each name, in order. -/
inductive Gives (k : Keeping ρ) (o : Offer ρ) : List (Pass ρ) → Prop
  | listed {ps : List (Pass ρ)} : o.parts.passes = some ps → Gives k o ps
  | named {ns : List String} {ps : List (Pass ρ)} : o.parts.passes = none → o.parts.names = some ns →
    ns.map (o.pass? k) = ps.map some → Gives k o ps

/-- A name among the names of passes leads to no transform. -/
def Lacks (k : Keeping ρ) (o : Offer ρ) (name : String) : Prop :=
  o.parts.passes = none ∧ (∃ ns, o.parts.names = some ns ∧ name ∈ ns) ∧ o.transform? k name = none

/-- The failure of a name that leads to no transform. -/
def missingPass (name : String) : Failure :=
  .plain ("error in passes_from_compiler, compiler has no pass: " ++ name)

variable {k : Keeping ρ} {o : Offer ρ} {name : String}

theorem attribute?_part (k : Keeping ρ) (h : o.parts.Plain)
    (hname : name ∈ ["passes", "pass_names", "interp_dict"]) :
    o.attribute? k name = o.parts.others.lookup name := by
  have hreserved : name ∈ Parts.reserved := by revert name; decide
  have hown := h.own?_of_reserved hreserved
  simp only [List.mem_cons, List.not_mem_nil, or_false] at hname
  -- no object has anything of these names but its own
  cases o with
  | object p =>
    rw [attribute?, Compiler.objectAttribute?, show p.compiler.own? name = _ from hown]
    rcases hname with rfl | rfl | rfl <;> exact Option.or_none
  | kind p =>
    rw [attribute?, Compiler.madeAttribute?, show p.compiler.own? name = _ from hown]
    rcases hname with rfl | rfl | rfl <;> exact Option.or_none

theorem attribute?_method (k : Keeping ρ) (h : o.parts.Plain) {method : Option ρ}
    (hm : o.parts.methods.lookup name = some method) :
    o.attribute? k name = some (Parts.ofMethod method) := by
  have hfree : name ∉ Parts.reserved := h _ (mem_of_lookup hm)
  have hclass : ¬ (name = "__class__" ∨ name = "__dict__") := by
    rintro (rfl | rfl) <;> exact hfree (by decide)
  cases o with
  | object p =>
    rw [attribute?, Compiler.objectAttribute?, if_neg (by simpa using hclass), Parts.own?_eq,
      show p.methods.lookup name = some method from hm]
    rfl
  | kind p =>
    rw [attribute?, Compiler.madeAttribute?, Parts.own?_eq,
      show p.methods.lookup name = some method from hm]
    rfl

theorem transform?_eq (k : Keeping ρ) (h : o.parts.Plain) (name : String) :
    (o.attribute? k name).bind (·.transform? k) = o.transform? k name := by
  unfold transform?
  cases hm : o.parts.methods.lookup name with
  | none => rfl
  | some method =>
    rw [attribute?_method k h hm]
    cases method <;> rfl

/-- Nothing of the compiler is run to find what it has under a name. -/
theorem find_eq (k : Keeping ρ) (h : o.parts.Plain) (name : String) :
    o.loaded.find k name = pure (o.attribute? k name) := by
  cases o with
  | object p => rfl
  | kind p =>
    have hnone : ∀ n ∈ ["__getattribute__", "__getattr__"], p.compiler.own? n = none :=
      fun n hn => Parts.Plain.own?_hook h (List.mem_append_right ["__new__", "__init__"] hn)
    have hmade : attribute? k (.kind p) name = p.compiler.madeAttribute? k name := rfl
    -- without routines of its own for it the class leaves the search to its attributes
    rw [loaded, Export.find, hnone _ (by decide), hnone _ (by decide), hmade]
    dsimp only
    rw [pure_bind]
    cases p.compiler.madeAttribute? k name <;> rfl

/-! ## Passes of a compiler -/

/-- Names lead to passes, or the first that leads to no transform is refused. -/
theorem ofNames_cases (o : Offer ρ) (k : Keeping ρ) : ∀ ns : List String,
    (∃ ps : List (Pass ρ), ns.map (o.pass? k) = ps.map some ∧
      Pass.ofNames (fun n => pure (o.transform? k n)) (fun n => pure (o.interpreter? n))
        (ns.map .str) = pure ps) ∨
    (∃ name ∈ ns, o.transform? k name = none ∧
      Pass.ofNames (fun n => pure (o.transform? k n)) (fun n => pure (o.interpreter? n))
        (ns.map .str) = throw (missingPass name))
  | [] => .inl ⟨[], rfl, rfl⟩
  | name :: ns => by
    rw [List.map_cons, List.map_cons, Pass.ofNames, pure_bind, pass?]
    cases ht : o.transform? k name with
    | none => exact .inr ⟨name, List.mem_cons_self, ht, rfl⟩
    | some t =>
      dsimp only
      rw [pure_bind]
      obtain ⟨ps, hps, heq⟩ | ⟨missing, hmem, hnone, heq⟩ := ofNames_cases o k ns
      · refine .inl ⟨⟨name, t, o.interpreter? name⟩ :: ps, ?_, ?_⟩
        · rw [hps]; rfl
        · rw [heq, pure_bind]
      · refine .inr ⟨missing, List.mem_cons_of_mem name hmem, hnone, ?_⟩
        rw [heq]; rfl

theorem interpreterIn_eq (k : Keeping ρ) (h : o.parts.Plain) (name : String) :
    Load.interpreterIn k (o.attribute? k "interp_dict") name = .ok (o.interpreter? name) := by
  rw [attribute?_part k h (by decide), (Parts.lookup_others _).2.2, interpreter?]
  cases o.parts.interpreters <;> rfl

/-- A compiler gives its passes, or one of their names leads to no transform, or it has neither a list
of passes nor names. -/
theorem passesOf_cases (k : Keeping ρ) (h : o.parts.Plain) (spec : String) :
    (∃ ps, o.Gives k ps ∧ Load.passesOf k spec o.loaded = pure (ps.map .pass)) ∨
    (∃ name, o.Lacks k name ∧ Load.passesOf k spec o.loaded = throw (missingPass name)) ∨
    (o.parts.passes = none ∧ o.parts.names = none ∧
      Load.passesOf k spec o.loaded = throw (Load.noPasses spec)) := by
  have hpasses := (attribute?_part k h (show "passes" ∈ _ by decide)).trans
    (Parts.lookup_others o.parts).1
  have hnames := (attribute?_part k h (show "pass_names" ∈ _ by decide)).trans
    (Parts.lookup_others o.parts).2.1
  unfold Load.passesOf Export.get
  -- every search is an answer now, and what is left follows the parts
  simp only [find_eq k h, pure_bind, hpasses, hnames, transform?_eq k h, interpreterIn_eq k h]
  cases hp : o.parts.passes with
  | some ps => exact .inl ⟨ps, .listed hp, rfl⟩
  | none =>
    cases hn : o.parts.names with
    | none => exact .inr (.inr ⟨rfl, rfl, rfl⟩)
    | some ns =>
      have hlist : Load.namesOf (.value (.list (ns.map .str)) : Attribute ρ) = .ok (ns.map .str) := rfl
      have hlift : ∀ {α : Type} (a : α), Job.lift (.ok a) = pure a := fun _ => rfl
      simp only [Option.map_none, Option.isSome_none, Bool.false_eq_true, if_false, Option.map_some,
        Option.isSome_some, if_true, pure_bind, hlist, hlift]
      obtain ⟨ps, hps, heq⟩ | ⟨name, hmem, hnone, heq⟩ := ofNames_cases o k ns
      · refine .inl ⟨ps, .named hp hn hps, ?_⟩
        rw [heq, pure_bind]
      · refine .inr (.inl ⟨name, ⟨hp, ⟨ns, hn, hmem⟩, hnone⟩, ?_⟩)
        rw [heq]; rfl

/-- A compiler with names that lead to nothing gives no passes. -/
theorem Gives.not_lacks {ps : List (Pass ρ)} (h : o.Gives k ps) (name : String) : ¬ o.Lacks k name := by
  rintro ⟨hnone, ⟨ns, hns, hmem⟩, hmissing⟩
  cases h with
  | listed hp => rw [hp] at hnone; cases hnone
  | named hp hn hps =>
    rw [hn] at hns
    cases hns
    have hnone : none ∈ ps.map some := by
      rw [← hps, List.mem_map]
      exact ⟨name, hmem, by rw [pass?, hmissing]; rfl⟩
    simp at hnone

theorem Gives.unique {ps qs : List (Pass ρ)} (hp : o.Gives k ps) (hq : o.Gives k qs) : ps = qs := by
  cases hp with
  | listed hp =>
    cases hq with
    | listed hq => rw [hp] at hq; cases hq; rfl
    | named hnone => rw [hp] at hnone; cases hnone
  | named hnone hn hp =>
    cases hq with
    | listed hq => rw [hq] at hnone; cases hnone
    | named _ hn' hq =>
      rw [hn] at hn'
      cases hn'
      exact List.map_injective_iff.2 (Option.some_injective _) (hp.symm.trans hq)

/-- A class makes a compiler without running anything of it. -/
theorem make_eq {α : Type} (k : Keeping ρ) (h : o.parts.Plain) (f : Export ρ → Job α) :
    (if o.toExport.isClass then o.toExport.call k [] >>= f else f o.toExport) = f o.loaded := by
  cases o with
  | object p => rfl
  | kind p =>
    have hnew : p.compiler.own? "__new__" = none := Parts.Plain.own?_hook h (by decide)
    have hinit : p.compiler.own? "__init__" = none := Parts.Plain.own?_hook h (by decide)
    show Export.instantiate k p.compiler [] >>= f = _
    rw [Export.instantiate, hnew, hinit]
    rfl

end Offer

end PassCheck
