import Brigade.Proofs.Makers
import Brigade.Proofs.Switches

/-! The two modes of the command line side by side, for orders whose meal is not left to chance. Recording
interpreters are scripted with a meal that such orders never ask for; where that cannot be built the run
fails before it starts. Apart from this both modes end alike, and serve the same meal. -/

namespace Brigade

open Text (isBlankText)

theorem Order.serving {o : Order} (hrandom : o ≠ .random) {maker : Option String} {p : Cooking Served}
    (hp : o.program maker = .ok p) :
    ∃ selector meal, Serving Station.standard.maxComponents selector meal p ∧
      (o ≠ .pizza → selector = none) := by
  obtain ⟨sandwich, hsandwich, hheight⟩ := Menu.exists_houseSandwich
  obtain ⟨pizza, hpizza, htoppings⟩ := Menu.exists_housePizza
  cases o with
  | sandwich =>
    simp only [program, meal, hsandwich] at hp
    cases hp
    exact ⟨_, _, .sandwich hheight, fun _ => rfl⟩
  | pizza =>
    cases maker with
    | none =>
      simp only [program, meal, hpizza] at hp
      cases hp
      exact ⟨_, _, .pizza htoppings, fun _ => rfl⟩
    | some name =>
      simp only [program, meal, hpizza, Built.andThen_ok] at hp
      cases hname : Cooking.makerOfText name with
      | error e =>
        simp only [Cooking.makePizzaBy, hname] at hp
        cases hp
      | ok maker =>
        cases hby : Cooking.makePizzaBy name pizza.recipe with
        | error e =>
          rw [hby] at hp
          cases hp
        | ok q =>
          rw [hby] at hp
          cases hp
          exact ⟨_, _, .pizzaBy hname htoppings hby, fun h => absurd rfl h⟩
  | combo =>
    simp only [program, meal, hsandwich, hpizza, Built.andThen_ok] at hp
    cases hp
    exact ⟨_, _, .combo hheight htoppings, fun _ => rfl⟩
  | random => exact absurd rfl hrandom

theorem Menu.exists_houseChoice_iff (maker : Option String) :
    (∃ choice, houseChoice maker = .ok choice) ↔ ∀ name ∈ maker, isBlankText name = false := by
  obtain ⟨sandwich, hsandwich, -⟩ := exists_houseSandwich
  obtain ⟨pizza, hpizza, -⟩ := exists_housePizza
  cases maker with
  | none =>
    have hchoice : houseChoice none = .ok (.sandwich sandwich) := by
      simp only [houseChoice, hsandwich]
      rfl
    exact iff_of_true ⟨_, hchoice⟩ fun _ hname => absurd hname (Option.not_mem_none _)
  | some name =>
    cases hblank : isBlankText name with
    | true =>
      have hname : Cooking.makerOfText name = .error (.empty "maker") := by
        simp only [Cooking.makerOfText, hblank, if_true]
      refine iff_of_false ?_ fun h => absurd (h name rfl) (by simp [hblank])
      rintro ⟨choice, hchoice⟩
      simp only [houseChoice, hname] at hchoice
      cases hchoice
    | false =>
      have hchoice : houseChoice (some name) = .ok (.pizza (some (Text.trim name)) pizza) := by
        simp only [houseChoice, Cooking.makerOfText_of_not_blank hblank, hpizza]
        rfl
      refine iff_of_true ⟨_, hchoice⟩ fun name' hname' => ?_
      cases hname'
      exact hblank

namespace CommandLine

/-- The first line that is printed is that of a meal. -/
def Outcome.Prints (o : Outcome) (served : Served) : Prop :=
  ∃ record, o.output = served.text ++ "\n" ++ record

theorem Outcome.agree_of_failure {plain mocked : Outcome} {P Q : Prop} (hmocked : mocked.exitCode = 1)
    (hplain : P → plain.exitCode = 1) :
    (mocked.exitCode = 0 ↔ plain.exitCode = 0 ∧ P) ∧ (mocked.exitCode = 0 → Q) := by
  have hne : mocked.exitCode ≠ 0 := by
    rw [hmocked]
    decide
  refine ⟨⟨fun h => absurd h hne, fun ⟨h, hP⟩ => ?_⟩, fun h => absurd h hne⟩
  rw [hplain hP] at h
  exact absurd h (by decide)

namespace Options

theorem serve_eq (o : Options) (c : Config) (program : Cooking Served) (staff : Staff) :
    let result := (((engine c).execute staff.registry Language.cooking none program).outcome
      staff.store).result
    (∃ served, result = .ok served ∧ (o.serve c program staff).exitCode = 0 ∧
        (o.serve c program staff).Prints served) ∨
      ∃ error, result = .error error ∧ (o.serve c program staff).exitCode = 1 := by
  intro result
  simp only [serve, result, Run.outcome]
  rcases (engine c).execute staff.registry Language.cooking none program ⟨staff.store, []⟩ with
    ⟨error | served, progress⟩
  · exact .inr ⟨error, rfl, rfl⟩
  · exact .inl ⟨served, rfl, rfl, _, rfl⟩

theorem run_eq_serve {o : Options} {c : Config} {p : Cooking Served} {freshSeed : UInt64} {staff : Staff}
    (hprogram : o.order.program o.baker = .ok p) (hstaff : o.staff freshSeed = .ok staff) :
    o.run (.ok c) freshSeed = o.serve c p staff := by
  simp only [run, hprogram, hstaff]

theorem run_of_program_error {o : Options} {e : ConstructionError}
    (hprogram : o.order.program o.baker = .error e) (c : Config) (freshSeed : UInt64) :
    (o.run (.ok c) freshSeed).exitCode = 1 := by
  simp only [run, hprogram]
  rfl

theorem run_of_staff_error {o : Options} {p : Cooking Served} {freshSeed : UInt64} {e : ConstructionError}
    (hprogram : o.order.program o.baker = .ok p) (hstaff : o.staff freshSeed = .error e) (c : Config) :
    (o.run (.ok c) freshSeed).exitCode = 1 := by
  simp only [run, hprogram, hstaff]
  rfl

theorem staff_of_plain {o : Options} (hmock : o.mock = false) (freshSeed : UInt64) :
    o.staff freshSeed = .ok ((o.kitchen freshSeed).staff .empty) := by
  simp only [staff, hmock, Bool.false_eq_true, if_false]
  rfl

theorem staff_mock (o : Options) (freshSeed : UInt64) : { o with mock := true }.staff freshSeed =
    (Menu.houseChoice o.baker).map fun choice => Recorder.staff o.makers (some choice) .empty := rfl

/-- A kitchen and recording interpreters, set up for one order, bring it to the same end. -/
theorem serve_modes {o : Options} (hdough : o.doughStock = none) (c : Config) {p : Cooking Served}
    {selector : Option String} {meal : Meal}
    (hp : Serving Station.standard.maxComponents selector meal p) (freshSeed : UInt64)
    (choice : MealChoice) :
    let plain := o.serve c p ((o.kitchen freshSeed).staff .empty)
    let mocked := { o with mock := true }.serve c p (Recorder.staff o.makers (some choice) .empty)
    (mocked.exitCode = 0 ↔ plain.exitCode = 0) ∧
      (mocked.exitCode = 0 → ∃ served, plain.Prints served ∧ mocked.Prints served) := by
  intro plain mocked
  have hstock : (o.kitchen freshSeed).doughStock ≠ some 0 := by simp [kitchen, hdough]
  have hg := Rehearsal.ready_ofKitchen (e := engine c) (fun _ _ _ => rfl) hstock (some choice)
    (s := .empty) (t := .empty) rfl selector
  obtain ⟨hresult, -, -⟩ := hg.execute hp
  obtain ⟨served, hserved, hcode, hprints⟩ | ⟨error, herror, hcode⟩ :=
    o.serve_eq c p ((o.kitchen freshSeed).staff .empty)
  · obtain ⟨served', hserved', hcode', hprints'⟩ | ⟨error', herror', -⟩ :=
      { o with mock := true }.serve_eq c p (Recorder.staff o.makers (some choice) .empty)
    · obtain rfl : served = served' :=
        Except.ok.inj (hserved.symm.trans (hresult.trans hserved'))
      exact ⟨⟨fun _ => hcode, fun _ => hcode'⟩, fun _ => ⟨served, hprints, hprints'⟩⟩
    · cases hserved.symm.trans (hresult.trans herror')
  · obtain ⟨served', hserved', -, -⟩ | ⟨error', -, hcode'⟩ :=
      { o with mock := true }.serve_eq c p (Recorder.staff o.makers (some choice) .empty)
    · cases herror.symm.trans (hresult.trans hserved')
    · simpa using Outcome.agree_of_failure (P := True) hcode' fun _ => hcode

/-- A command whose order is not left to chance, without the switch for recording interpreters and with
it, and dough without limit. With the switch it succeeds exactly if it does without and the pizza is not
asked for from a maker without a name; and then both print the same meal first. -/
theorem run_modes {o : Options} (hmock : o.mock = false) (horder : o.order ≠ .random)
    (hdough : o.doughStock = none) (sources : ConfigSources) (freshSeed freshSeed' : UInt64) :
    let o' := { o with mock := true }
    let plain := o.run (o.configure sources) freshSeed
    let mocked := o'.run (o'.configure sources) freshSeed'
    (mocked.exitCode = 0 ↔ plain.exitCode = 0 ∧ ∀ name ∈ o.baker, isBlankText name = false) ∧
      (mocked.exitCode = 0 → ∃ served, plain.Prints served ∧ mocked.Prints served) := by
  have hconfigure : { o with mock := true }.configure sources = o.configure sources := rfl
  intro o' plain mocked
  simp only [o', plain, mocked, hconfigure]
  cases hconfig : o.configure sources with
  | error e => exact Outcome.agree_of_failure rfl fun _ => rfl
  | ok c =>
    cases hprogram : o.order.program o.baker with
    | error e =>
      have hmocked := run_of_program_error (o := { o with mock := true }) hprogram c freshSeed'
      exact Outcome.agree_of_failure hmocked fun _ => run_of_program_error hprogram c freshSeed
    | ok p =>
      -- here the modes part: recording interpreters need a choice of the house, whatever the order is
      have hnamed := Menu.exists_houseChoice_iff o.baker
      have hstaff := staff_mock o freshSeed'
      cases hchoice : Menu.houseChoice o.baker with
      | error e =>
        rw [hchoice] at hnamed hstaff
        have hmocked := run_of_staff_error (o := { o with mock := true }) hprogram hstaff c
        refine Outcome.agree_of_failure hmocked fun h => ?_
        obtain ⟨choice, hok⟩ := hnamed.2 h
        cases hok
      | ok choice =>
        rw [hchoice] at hstaff
        have hname := hnamed.1 ⟨choice, hchoice⟩
        obtain ⟨selector, meal, hserving, -⟩ := Order.serving horder hprogram
        rw [run_eq_serve hprogram (staff_of_plain hmock freshSeed),
          run_eq_serve (o := { o with mock := true }) hprogram hstaff]
        obtain ⟨hcodes, hprints⟩ := o.serve_modes hdough c hserving freshSeed choice
        exact ⟨hcodes.trans (and_iff_left hname).symm, hprints⟩

/-- Arguments are accepted with the switch put in if and only if they are accepted without it, and it is
not among them; the options differ in the mode alone. Where the order is not left to chance and the dough
is without limit, the command succeeds with the switch exactly if it does without and the pizza is not
asked for from a maker without a name; and then both print the same meal first. -/
theorem run_mock (arguments : List String) (sources : ConfigSources) (freshSeed freshSeed' : UInt64) :
    (∀ o', OfSwitched arguments o' ↔
        ∃ o, ofArguments arguments = .ok o ∧ o.mock = false ∧ o' = { o with mock := true }) ∧
      ∀ o o', ofArguments arguments = .ok o → OfSwitched arguments o' → o.order ≠ .random →
        o.doughStock = none →
        let plain := o.run (o.configure sources) freshSeed
        let mocked := o'.run (o'.configure sources) freshSeed'
        (mocked.exitCode = 0 ↔ plain.exitCode = 0 ∧ ∀ name ∈ o.baker, isBlankText name = false) ∧
          (mocked.exitCode = 0 → ∃ served, plain.Prints served ∧ mocked.Prints served) := by
  refine ⟨fun o' => ofSwitched_iff, fun o o' ho ho' horder hdough => ?_⟩
  obtain ⟨o₁, ho₁, hmock, rfl⟩ := ofSwitched_iff.1 ho'
  obtain rfl : o = o₁ := Except.ok.inj (ho.symm.trans ho₁)
  exact run_modes hmock horder hdough sources freshSeed freshSeed'

theorem run_of_plain {o : Options} (hmock : o.mock = false) (hdough : o.doughStock = none) {c : Config}
    (hsettings : c.engine = .default) {p : Cooking Served} (hprogram : o.order.program o.baker = .ok p)
    {selector : Option String} {meal : Meal}
    (hp : Serving Station.standard.maxComponents selector meal p)
    (hbound : ∀ maker ∈ selector, maker ∈ o.makers) (freshSeed : UInt64) :
    (o.run (.ok c) freshSeed).exitCode = 0 := by
  have hstaff := staff_of_plain hmock freshSeed
  rw [run_eq_serve hprogram hstaff]
  obtain ⟨served, -, hcode, -⟩ | ⟨error, herror, -⟩ :=
    o.serve_eq c p ((o.kitchen freshSeed).staff .empty)
  · exact hcode
  · obtain ⟨-, hserved⟩ | ⟨maker, hmaker, hstranger, -⟩ :=
      (ready_staff hdough hstaff).1.execute_default (e := engine c) hsettings (fun _ => rfl) hp
    · exact absurd (hserved.symm.trans herror) nofun
    · exact absurd (hbound maker hmaker) hstranger

def noSources : ConfigSources := ⟨none, none, none⟩

def sandwichBy (name : String) (mock : Bool) : Options :=
  ⟨false, none, [], some name, none, none, mock, .sandwich⟩

theorem run_sandwichBy (name : String) (freshSeed : UInt64) :
    ((sandwichBy name false).run (.ok .default) freshSeed).exitCode = 0 := by
  obtain ⟨p, hprogram⟩ : ∃ p, Order.sandwich.program (some name) = .ok p := ⟨_, rfl⟩
  obtain ⟨selector, meal, hserving, hselector⟩ := Order.serving (o := .sandwich) nofun hprogram
  obtain rfl : selector = none := hselector nofun
  exact run_of_plain (o := sandwichBy name false) (c := .default) rfl rfl rfl hprogram hserving nofun
    freshSeed

/-- The order fails with recording interpreters alone if the maker has no name. -/
theorem run_mock_nameless : ∃ o o', ofArguments ["sandwich", "--by", " "] = .ok o ∧
    OfSwitched ["sandwich", "--by", " "] o' ∧ o.order ≠ .random ∧ o.doughStock = none ∧
    (o.run (o.configure noSources) 1).exitCode = 0 ∧
    (o'.run (o'.configure noSources) 1).exitCode = 1 :=
  ⟨sandwichBy " " false, sandwichBy " " true, rfl, ⟨["sandwich", "--by", " "], [], rfl, rfl⟩, nofun, rfl,
    run_sandwichBy " " 1, rfl⟩

theorem run_mock_named : ∃ o o', ofArguments ["sandwich", "--by", "Mario"] = .ok o ∧
    OfSwitched ["sandwich", "--by", "Mario"] o' ∧ o.order ≠ .random ∧ o.doughStock = none ∧
    let plain := o.run (o.configure noSources) 1
    let mocked := o'.run (o'.configure noSources) 1
    plain.exitCode = 0 ∧ mocked.exitCode = 0 ∧
      ∃ served, plain.Prints served ∧ mocked.Prints served := by
  have hparse : ofArguments ["sandwich", "--by", "Mario"] = .ok (sandwichBy "Mario" false) := rfl
  obtain ⟨hswitched, hmodes⟩ := run_mock ["sandwich", "--by", "Mario"] noSources 1 1
  have hparse' : OfSwitched ["sandwich", "--by", "Mario"] (sandwichBy "Mario" true) :=
    (hswitched _).2 ⟨_, hparse, rfl, rfl⟩
  obtain ⟨hcodes, hprints⟩ := hmodes _ _ hparse hparse' nofun rfl
  have hplain := run_sandwichBy "Mario" 1
  have hmocked := hcodes.2 ⟨hplain, fun name hname => by cases hname; rfl⟩
  exact ⟨_, _, hparse, hparse', nofun, rfl, hplain, hmocked, hprints hmocked⟩

end Options

end CommandLine

end Brigade
