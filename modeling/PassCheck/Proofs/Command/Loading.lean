/-
Loading a compiler by its name, from modules that offer compilers. Loading runs nothing of them and
changes nothing. It gives the passes of a compiler that is offered and has them all, and else it fails.
Most failures are reports, and a command ends with their message. The others are not: a module name
that cannot be asked for, the class of the module itself, and a name of a pass that leads to nothing
(`load_fails_with_report_unless`).
-/
import PassCheck.Command.Compile
import PassCheck.Proofs.Build.Offer
import PassCheck.Proofs.Command.Tests

namespace PassCheck

variable {ρ : Type}

/-! ## Modules -/

/-- Modules by their names, and what each of them offers. -/
abbrev Library (ρ : Type) := List (String × List (String × Offer ρ))

namespace Library

open Load (cut)

/-- The modules of a library. -/
def modules (lib : Library ρ) : Modules ρ :=
  lib.map fun m => (m.1, m.2.map fun e => (e.1, e.2.toExport))

/-- Names that are the module's own, or take part in finding its members and the modules below it. -/
def reserved : List String := ["__class__", "__dict__", "__getattr__", "__path__"]

/-- Modules that offer compilers, and no more than that. -/
structure Plain (lib : Library ρ) : Prop where
  members : ∀ m ∈ lib, ∀ e ∈ m.2, e.1 ∉ reserved
  compilers : ∀ m ∈ lib, ∀ e ∈ m.2, e.2.parts.Plain

/-- The module that a spec names. -/
def moduleOf (spec : String) : String := (cut ':' spec).1

/-- The member that a spec names. -/
def memberOf (spec : String) : String :=
  if (cut ':' spec).2 = "" then "Compiler" else (cut ':' spec).2

/-- What a spec names is offered. -/
def offer? (lib : Library ρ) (spec : String) : Option (Offer ρ) :=
  (lib.lookup (moduleOf spec)).bind fun offers => offers.lookup (memberOf spec)

/-- What a module has under a name. -/
def memberIn (offers : List (String × Offer ρ)) (member : String) : Option (Export ρ) :=
  if member = "__class__" then some .moduleClass
  else if member = "__dict__" then some .other
  else ((offers.lookup member).map Offer.toExport).or (Load.standard? member)

variable {lib : Library ρ} {k : Keeping ρ} {name : String} {offers : List (String × Offer ρ)}

theorem lookup_modules (lib : Library ρ) (name : String) : lib.modules.lookup name =
    (lib.lookup name).map fun offers => offers.map fun e => (e.1, e.2.toExport) :=
  lookup_map_snd _ lib name

theorem Plain.lookup_reserved (h : lib.Plain) (hm : lib.lookup name = some offers) {member : String}
    (hmember : member ∈ reserved) : offers.lookup member = none :=
  lookup_eq_none_of_forall fun e he heq => h.members _ (mem_of_lookup hm) e he (heq ▸ hmember)

theorem Plain.member?_eq (k : Keeping ρ) (h : lib.Plain) (hm : lib.lookup name = some offers)
    (member : String) :
    Load.member? k (offers.map fun e => (e.1, e.2.toExport)) member = pure (memberIn offers member) := by
  rw [Load.member?, memberIn, lookup_map_snd, lookup_map_snd,
    h.lookup_reserved hm (show "__getattr__" ∈ reserved by decide)]
  split
  · rfl
  · split
    · rfl
    · cases ((offers.lookup member).map Offer.toExport).or (Load.standard? member) <;> rfl

theorem Plain.isPackage_eq (k : Keeping ρ) (h : lib.Plain) (name : String) :
    Load.isPackage k ((lib.modules.lookup name).getD []) = pure false := by
  rw [lookup_modules]
  cases hm : lib.lookup name with
  | none => rfl
  | some offers =>
    have hpath : memberIn offers "__path__" = none := by
      rw [memberIn, h.lookup_reserved hm (by decide)]; rfl
    rw [Option.map_some, Option.getD_some, Load.isPackage, h.member?_eq k hm, hpath, pure_bind]

/-- A name leads to no module exactly if no module has this name. -/
theorem Plain.missingModule_eq (k : Keeping ρ) (h : lib.Plain) : ∀ (name : String) (parents : List String),
    ∃ fault, Load.missingModule k lib.modules (name :: parents) = pure fault ∧
      if (lib.lookup name).isSome then fault = none else ∃ text, fault = some (.noModule text)
  | name, [] => by
    rw [Load.missingModule, lookup_modules, Option.isSome_map]
    split
    · exact ⟨none, rfl, rfl⟩
    · exact ⟨_, rfl, _, rfl⟩
  | name, parent :: parents => by
    rw [Load.missingModule, lookup_modules, Option.isSome_map]
    split
    · exact ⟨none, rfl, rfl⟩
    · obtain ⟨fault, heq, hfault⟩ := h.missingModule_eq k parent parents
      simp only [heq, pure_bind]
      split at hfault
      · subst hfault
        -- the parent is a module, but there are no modules below it
        simp only [h.isPackage_eq k, pure_bind]
        exact ⟨_, rfl, _, rfl⟩
      · obtain ⟨text, rfl⟩ := hfault
        exact ⟨_, rfl, text, rfl⟩

theorem Plain.missingModule_dottedParts (k : Keeping ρ) (h : lib.Plain) (name : String) :
    ∃ fault, Load.missingModule k lib.modules ((Load.dottedParts name.toList).map String.ofList) =
        pure fault ∧
      if (lib.lookup name).isSome then fault = none else ∃ text, fault = some (.noModule text) := by
  rw [Load.dottedParts, List.map_cons, String.ofList_toList]
  exact h.missingModule_eq k name _

theorem Plain.importFrom_of_none (k : Keeping ρ) (h : lib.Plain) (hm : lib.lookup name = none)
    (member : String) :
    ∃ text, Load.importFrom k lib.modules name member = pure (.error (.noModule text)) := by
  obtain ⟨fault, heq, hfault⟩ := h.missingModule_dottedParts k name
  rw [hm] at hfault
  obtain ⟨text, rfl⟩ := hfault
  exact ⟨text, by rw [Load.importFrom, heq, pure_bind]⟩

theorem Plain.importFrom_of_some (k : Keeping ρ) (h : lib.Plain) (hm : lib.lookup name = some offers)
    (member : String) : ∃ text, Load.importFrom k lib.modules name member =
      pure (match memberIn offers member with
        | some e => .ok e
        | none => .error (.noAttribute text)) := by
  obtain ⟨fault, heq, hfault⟩ := h.missingModule_dottedParts k name
  rw [hm] at hfault
  obtain rfl : fault = none := hfault
  refine ⟨Load.missingMember (offers.map fun e => (e.1, e.2.toExport)) name member, ?_⟩
  rw [Load.importFrom, heq, pure_bind]
  simp only [lookup_modules, hm, Option.map_some, Option.getD_some, h.member?_eq k hm, pure_bind]
  cases memberIn offers member <;> rfl

/-! ## What loading answers -/

/-- A module name that can be asked for. -/
def Askable (spec : String) : Prop :=
  moduleOf spec ≠ "" ∧ (moduleOf spec).toList.head? ≠ some '.'

/-- The failures of loading that are no reports. -/
inductive Unreported (k : Keeping ρ) (lib : Library ρ) (spec : String) : Failure → Prop
  | empty : moduleOf spec = "" → Unreported k lib spec (.badValue none)
  | relative : (moduleOf spec).toList.head? = some '.' → Unreported k lib spec .badType
  /-- The class of the module cannot make a compiler. -/
  | itself : (lib.lookup (moduleOf spec)).isSome = true → memberOf spec = "__class__" →
    Unreported k lib spec .badType
  | lacking {o : Offer ρ} {name : String} : lib.offer? spec = some o → o.Lacks k name →
    Unreported k lib spec (Offer.missingPass name)

/-- What loading answers: the passes of what the spec names, a failure that is no report, or else a
report. -/
inductive Answers (k : Keeping ρ) (lib : Library ρ) (spec : String) :
    Except Failure (List (Loaded ρ)) → Prop
  | passes {o : Offer ρ} {ps : List (Pass ρ)} : Askable spec → lib.offer? spec = some o → o.Gives k ps →
    Answers k lib spec (.ok (ps.map .pass))
  | unreported {e : Failure} : Unreported k lib spec e → Answers k lib spec (.error e)
  | reported {reason : Reason} {text : String} : (∀ e, ¬ Unreported k lib spec e) →
    (∀ o, lib.offer? spec = some o → o.parts.passes = none ∧ o.parts.names = none) →
    (Report.load (.str spec) reason).message? =
      .ok ("could not load compiler " ++ spec ++ ": " ++ text) →
    Answers k lib spec (.error (.report (.load (.str spec) reason)))

variable {spec : String}

theorem message?_given (spec text : String) : (Report.load (.str spec) (.given (.str text))).message? =
    .ok ("could not load compiler " ++ spec ++ ": " ++ text) := rfl

theorem message?_fault (spec : String) (fault : ImportFault) :
    (Report.load (.str spec) (.fault fault)).message? =
      .ok ("could not load compiler " ++ spec ++ ": " ++ fault.text) := rfl

theorem Unreported.not_report {e : Failure} (h : Unreported k lib spec e) (r : Report) :
    e ≠ .report r := by
  cases h <;> exact nofun

/-- A spec that can be asked for, of a member other than the class of its module, fails without a report
only if it names a compiler that lacks a pass. -/
theorem not_unreported (hask : Askable spec)
    (hclass : (lib.lookup (moduleOf spec)).isSome = true → memberOf spec ≠ "__class__")
    (hlacks : ∀ o name, lib.offer? spec = some o → ¬ o.Lacks k name) (e : Failure) :
    ¬ Unreported k lib spec e := by
  rintro (hempty | hdot | ⟨hm, hmember⟩ | ⟨ho, hname⟩)
  · exact hask.1 hempty
  · exact hask.2 hdot
  · exact hclass hm hmember
  · exact hlacks _ _ ho hname

/-- A report is the answer if there is nothing with passes or names of passes. -/
theorem Answers.of_report (hask : Askable spec)
    (hclass : (lib.lookup (moduleOf spec)).isSome = true → memberOf spec ≠ "__class__")
    (hnone : ∀ o, lib.offer? spec = some o → o.parts.passes = none ∧ o.parts.names = none)
    {reason : Reason} {text : String} (hmessage : (Report.load (.str spec) reason).message? =
      .ok ("could not load compiler " ++ spec ++ ": " ++ text)) :
    Answers k lib spec (.error (.report (.load (.str spec) reason))) := by
  refine .reported (not_unreported hask hclass fun o name ho hlacks => ?_) hnone hmessage
  obtain ⟨-, ⟨ns, hns, -⟩, -⟩ := hlacks
  rw [(hnone o ho).2] at hns
  cases hns

theorem Plain.memberOf_ne_class (h : lib.Plain) {o : Offer ρ} (ho : lib.offer? spec = some o) :
    memberOf spec ≠ "__class__" := by
  intro hclass
  obtain ⟨offers, hm, hoffer⟩ := Option.bind_eq_some_iff.1 ho
  rw [hclass, h.lookup_reserved hm (by decide)] at hoffer
  cases hoffer

theorem importSpec_eq (k : Keeping ρ) (lib : Library ρ) (spec : String) :
    Load.importSpec k lib.modules spec =
      if (moduleOf spec).toList.head? = some '.' then throw .badType
      else if moduleOf spec = "" then throw (.badValue none)
      else Load.importFrom k lib.modules (moduleOf spec) (memberOf spec) >>= fun
        | .ok e => pure e
        | .error fault => throw (.report (.load (.str spec) (.fault fault))) := by
  unfold Load.importSpec moduleOf memberOf
  dsimp only
  split
  · rfl
  · split <;> rfl

/-- The answer for a member that the module does not offer. -/
theorem Plain.passes_of_no_offer (k : Keeping ρ) (h : lib.Plain) (hask : Askable spec)
    (hm : lib.lookup (moduleOf spec) = some offers) (ho : offers.lookup (memberOf spec) = none) :
    ∃ r, Load.passes k lib.modules spec = Job.lift r ∧ Answers k lib spec r := by
  have hoffer : lib.offer? spec = none := by rw [offer?, hm]; exact ho
  obtain ⟨text, heq⟩ := h.importFrom_of_some k hm (memberOf spec)
  rw [Load.passes, importSpec_eq, if_neg hask.2, if_neg hask.1, heq]
  by_cases hclass : memberOf spec = "__class__"
  · rw [hclass]
    exact ⟨_, rfl, .unreported (.itself (by rw [hm]; rfl) hclass)⟩
  have hnone : ∀ o, lib.offer? spec = some o → o.parts.passes = none ∧ o.parts.names = none :=
    fun o he => by rw [hoffer] at he; cases he
  -- what every module has is no compiler
  have hmember : memberIn offers (memberOf spec) = some .other ∨
      memberIn offers (memberOf spec) = none := by
    rw [memberIn, if_neg hclass, ho, Load.standard?]
    split
    · exact .inl rfl
    · split
      · exact .inl rfl
      · exact .inr rfl
  rcases hmember with he | he
  · rw [he]
    exact ⟨_, rfl, .of_report hask (fun _ => hclass) hnone (message?_given ..)⟩
  · rw [he]
    exact ⟨_, rfl, .of_report hask (fun _ => hclass) hnone (message?_fault ..)⟩

/-- The answer for a compiler that is offered. -/
theorem Plain.passes_of_offer (k : Keeping ρ) (h : lib.Plain) (hask : Askable spec)
    (hm : lib.lookup (moduleOf spec) = some offers) {o : Offer ρ}
    (ho : offers.lookup (memberOf spec) = some o) :
    ∃ r, Load.passes k lib.modules spec = Job.lift r ∧ Answers k lib spec r := by
  have hoffer : lib.offer? spec = some o := by rw [offer?, hm]; exact ho
  have hplain : o.parts.Plain := h.compilers _ (mem_of_lookup hm) _ (mem_of_lookup ho)
  have hfree : memberOf spec ∉ reserved := h.members _ (mem_of_lookup hm) _ (mem_of_lookup ho)
  have hmember : memberIn offers (memberOf spec) = some o.toExport := by
    have hclass : memberOf spec ≠ "__class__" := fun he => hfree (he ▸ by decide)
    have hdict : memberOf spec ≠ "__dict__" := fun he => hfree (he ▸ by decide)
    rw [memberIn, if_neg hclass, if_neg hdict, ho]
    rfl
  obtain ⟨text, heq⟩ := h.importFrom_of_some k hm (memberOf spec)
  rw [Load.passes, importSpec_eq, if_neg hask.2, if_neg hask.1, heq, hmember]
  simp only [pure_bind, Offer.make_eq k hplain]
  obtain ⟨ps, hps, heq⟩ | ⟨name, hlacks, heq⟩ | ⟨hp, hn, heq⟩ := Offer.passesOf_cases k hplain spec
  · rw [heq]
    exact ⟨_, rfl, .passes hask hoffer hps⟩
  · rw [heq]
    exact ⟨_, rfl, .unreported (.lacking hoffer hlacks)⟩
  · rw [heq]
    refine ⟨_, rfl, .of_report hask (fun _ => h.memberOf_ne_class hoffer) (fun o' ho' => ?_)
      (message?_given ..)⟩
    rw [hoffer] at ho'
    cases ho'
    exact ⟨hp, hn⟩

/-- Loading answers without running anything of a compiler. -/
theorem Plain.passes_answers (k : Keeping ρ) (h : lib.Plain) (spec : String) :
    ∃ r, Load.passes k lib.modules spec = Job.lift r ∧ Answers k lib spec r := by
  by_cases hdot : (moduleOf spec).toList.head? = some '.'
  · rw [Load.passes, importSpec_eq, if_pos hdot]
    exact ⟨_, rfl, .unreported (.relative hdot)⟩
  by_cases hempty : moduleOf spec = ""
  · rw [Load.passes, importSpec_eq, if_neg hdot, if_pos hempty]
    exact ⟨_, rfl, .unreported (.empty hempty)⟩
  cases hm : lib.lookup (moduleOf spec) with
  | none =>
    obtain ⟨text, heq⟩ := h.importFrom_of_none k hm (memberOf spec)
    rw [Load.passes, importSpec_eq, if_neg hdot, if_neg hempty, heq]
    refine ⟨_, rfl, .of_report ⟨hempty, hdot⟩ (fun hsome => ?_) (fun o ho => ?_) (message?_fault ..)⟩
    · rw [hm] at hsome
      cases hsome
    · rw [offer?, hm] at ho
      cases ho
  | some offers =>
    cases ho : offers.lookup (memberOf spec) with
    | none => exact h.passes_of_no_offer k ⟨hempty, hdot⟩ hm ho
    | some o => exact h.passes_of_offer k ⟨hempty, hdot⟩ hm ho

theorem Plain.not_unreported_of_gives (h : lib.Plain) (hask : Askable spec) {o : Offer ρ}
    (ho : lib.offer? spec = some o) {ps : List (Pass ρ)} (hps : o.Gives k ps) (e : Failure) :
    ¬ Unreported k lib spec e := by
  refine not_unreported hask (fun _ => h.memberOf_ne_class ho) (fun o' name ho' => ?_) e
  rw [ho] at ho'
  cases ho'
  exact hps.not_lacks name

variable {r : Except Failure (List (Loaded ρ))}

theorem Answers.eq_ok_iff (h : lib.Plain) (hr : Answers k lib spec r) {loaded : List (Loaded ρ)} :
    r = .ok loaded ↔
      ∃ o ps, Askable spec ∧ lib.offer? spec = some o ∧ o.Gives k ps ∧ loaded = ps.map .pass := by
  constructor
  · rintro rfl
    cases hr with
    | passes hask ho hps => exact ⟨_, _, hask, ho, hps, rfl⟩
  · rintro ⟨o, ps, hask, ho, hps, rfl⟩
    cases hr with
    | passes _ ho' hps' =>
      rw [ho] at ho'
      cases ho'
      rw [hps.unique hps']
    | unreported he => exact absurd he (h.not_unreported_of_gives hask ho hps _)
    | reported _ hnone _ =>
      obtain ⟨hp, hn⟩ := hnone o ho
      cases hps with
      | listed hps => rw [hp] at hps; cases hps
      | named _ hns => rw [hn] at hns; cases hns

theorem Answers.of_eq_error (hr : Answers k lib spec r) {e : Failure} (he : r = .error e) :
    (∃ reason, e = .report (.load (.str spec) reason)) ∨ Unreported k lib spec e := by
  subst he
  cases hr with
  | unreported he => exact .inr he
  | reported => exact .inl ⟨_, rfl⟩

theorem Answers.not_report (h : lib.Plain) (hr : Answers k lib spec r) {e : Failure}
    (he : Unreported k lib spec e) : ∃ e, r = .error e ∧ ∀ report, e ≠ .report report := by
  cases hr with
  | passes hask ho hps => exact absurd he (h.not_unreported_of_gives hask ho hps e)
  | unreported he => exact ⟨_, rfl, he.not_report⟩
  | reported hnot => exact absurd he (hnot e)

end Library

/-! ## Commands -/

namespace Command

variable {load : Loader} {spec : String}

theorem exists_applyTrace (s : Settings) (w : World) : ∃ v, applyTrace s w = (.ok (), v) := by
  unfold applyTrace
  split
  · exact ⟨_, rfl⟩
  · exact ⟨w, rfl⟩

/-- Both commands end in this way with the compiler of a spec, the second as soon as it knows which
tests to run. -/
structure EndsWith (load : Loader) (spec : String) (exit : Exit) : Prop where
  compile : ∀ args s w, Compile.grammar.parse args = .ok s → s.compiler = .str spec →
    (Compile.run load args w).1 = .ok exit
  tests : ∀ args s w is, Tests.grammar.parse args = .ok s → s.compiler = .str spec →
    (Tests.chooseIndices (s.text "family") (s.value "--tests-dir" (.str Check.defaultTestsDir))
      (s.items "indices") (applyTrace s w).2).1 = .ok is →
    (Tests.run load args w).1 = .ok exit

theorem endsWith_of_error {e : Failure} {exit : Exit} (hload : ∀ w, load spec w = (.error e, w))
    (hended : ended e = .ok exit) : EndsWith load spec exit := by
  have hpasses : ∀ s : Settings, s.compiler = .str spec → ∀ w, load.passes s.compiler w = (.error e, w) := by
    intro s hs w
    rw [hs]
    exact hload w
  constructor
  · intro args s w hparse hs
    obtain ⟨v, hv⟩ := exists_applyTrace s w
    unfold Compile.run withSettings
    rw [hparse]
    dsimp only
    rw [Job.bind_of_ok hv, reporting_of_error (Job.bind_of_error (hpasses s hs v)), hended]
  · intro args s w is hparse hs hchosen
    obtain ⟨v, hv⟩ := exists_applyTrace s w
    rw [hv] at hchosen
    unfold Tests.run withSettings
    rw [hparse]
    dsimp only
    rw [Job.bind_of_ok hv]
    -- the tests are chosen before the compiler is loaded
    cases hchoose : Tests.chooseIndices (s.text "family")
        (s.value "--tests-dir" (.str Check.defaultTestsDir)) (s.items "indices") v with
    | mk r v' =>
      rw [hchoose] at hchosen
      obtain rfl : r = .ok is := hchosen
      rw [Job.bind_of_ok hchoose, reporting_of_error (Job.bind_of_error (hpasses s hs v')), hended]

end Command

namespace Library

open Command (EndsWith)

/-- Loading leaves the world as it is. It gives the passes of the compiler that the spec names, exactly
where it has them all. All its failures are reports, which end the commands with their message, except
where one of the four conditions of `Unreported` holds, and there none is. -/
theorem load_fails_with_report_unless (k : Keeping ρ) {lib : Library ρ} (h : lib.Plain)
    (spec : String) :
    ∃ r, (∀ w, Load.passes k lib.modules spec w = (r, w)) ∧
      (∀ loaded, r = .ok loaded ↔
        ∃ o ps, Askable spec ∧ lib.offer? spec = some o ∧ o.Gives k ps ∧ loaded = ps.map .pass) ∧
      (∀ e, r = .error e →
        (∃ reason, e = .report (.load (.str spec) reason)) ∨ Unreported k lib spec e) ∧
      (∀ e, Unreported k lib spec e → ∃ e, r = .error e ∧ ∀ report, e ≠ .report report) ∧
      (∀ reason, r = .error (.report (.load (.str spec) reason)) →
        ∃ text, EndsWith (Load.runnable k lib.modules) spec
          (.message ("Error: could not load compiler " ++ spec ++ ": " ++ text))) := by
  obtain ⟨r, heq, hr⟩ := h.passes_answers k spec
  refine ⟨r, fun w => by rw [heq]; rfl, fun loaded => hr.eq_ok_iff h, fun e => hr.of_eq_error,
    fun e => hr.not_report h, ?_⟩
  rintro reason rfl
  cases hr with
  | unreported he => exact absurd rfl (he.not_report _)
  | @reported _ text _ _ hmessage =>
    refine ⟨text, Command.endsWith_of_error (e := .report (.load (.str spec) reason)) ?_ ?_⟩
    · intro w
      rw [Load.runnable, heq]
      rfl
    · rw [Command.ended, hmessage, Except.map, ← String.append_assoc, ← String.append_assoc,
        ← String.append_assoc]
      rfl

/-- Routines kept as they are. -/
def direct : Keeping Routine := ⟨id, id⟩

/-- A module with a compiler that has its passes, one whose method is no routine, and a class without
any part. -/
def sampleLibrary : Library Routine :=
  [("m",
    [("Whole", .object ⟨none, some ["fold", "codegen"], some [("fold", Recipe.interpret.routine)],
        [("codegen", some Recipe.codegen.routine), ("fold", some Recipe.fold.routine)]⟩),
      ("Torn", .kind ⟨none, some ["fold", "codegen"], none,
        [("codegen", none), ("fold", some Recipe.fold.routine)]⟩),
      ("Bare", .kind ⟨none, none, none, []⟩)])]

theorem plain_sampleLibrary : sampleLibrary.Plain := ⟨by decide, by decide⟩

theorem load_fails_with_report_unless_sample :
    sampleLibrary.Plain ∧
    (∀ w, Load.passes direct sampleLibrary.modules "m:Whole" w =
      (.ok [.pass ⟨"fold", Recipe.fold.routine, some Recipe.interpret.routine⟩,
        .pass ⟨"codegen", Recipe.codegen.routine, none⟩], w)) ∧
    ∃ text, EndsWith (Load.runnable direct sampleLibrary.modules) "m:Bare"
      (.message ("Error: could not load compiler " ++ "m:Bare" ++ ": " ++ text)) := by
  refine ⟨plain_sampleLibrary, ?_, ?_⟩
  · obtain ⟨r, hr, hok, -⟩ := load_fails_with_report_unless direct plain_sampleLibrary "m:Whole"
    have hloaded := (hok [.pass ⟨"fold", Recipe.fold.routine, some Recipe.interpret.routine⟩,
      .pass ⟨"codegen", Recipe.codegen.routine, none⟩]).2
      ⟨_, [⟨"fold", Recipe.fold.routine, some Recipe.interpret.routine⟩,
        ⟨"codegen", Recipe.codegen.routine, none⟩], ⟨by decide, by decide⟩, rfl, .named rfl rfl rfl, rfl⟩
    intro w
    rw [hr w, hloaded]
  · obtain ⟨r, hr, -, -, -, hreport⟩ := load_fails_with_report_unless direct plain_sampleLibrary "m:Bare"
    have hfails : Load.passes direct sampleLibrary.modules "m:Bare" (.start .empty) =
        (.error (Load.noPasses "m:Bare"), .start .empty) := rfl
    rw [hr] at hfails
    exact hreport _ (Prod.mk.inj hfails).1

/-- A compiler without one of its passes, a spec without a module, and one that begins with a dot. -/
theorem load_fails_otherwise :
    sampleLibrary.Plain ∧
    ∀ w, Load.passes direct sampleLibrary.modules "m:Torn" w =
        (.error (.plain "error in passes_from_compiler, compiler has no pass: codegen"), w) ∧
      Load.passes direct sampleLibrary.modules ":Whole" w = (.error (.badValue none), w) ∧
      Load.passes direct sampleLibrary.modules ".m:Whole" w = (.error .badType, w) :=
  ⟨plain_sampleLibrary, fun _ => ⟨rfl, rfl, rfl⟩⟩

end Library

end PassCheck
