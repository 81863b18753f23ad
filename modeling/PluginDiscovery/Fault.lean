/-!
# Faults

Every problem that discovery finds is a fault: a code that never changes and the arguments that its
wording needs. Faults are ordered by their codes, in the order in which the codes are declared, and
then by their arguments, compared as lists of texts in which a list comes after all that it extends.

A failed load reports its faults together. A report keeps every fault once and in order, so it does
not depend on the order in which the faults were found.
-/

namespace PluginDiscovery

/-- The kinds of fault. -/
inductive FaultCode where
  /-- A manifest that is there cannot be read. -/
  | unreadableManifest
  /-- A listed name cannot be resolved to a type. -/
  | unresolvedType
  /-- Something that an implementation links against is not declared. -/
  | missingDependency
  /-- An extension point is declared by a type that is not an interface. -/
  | notAnInterface
  /-- An implementation is declared by a type that is not a concrete class. -/
  | notAConcreteClass
  /-- A name is declared by several types of one registry. -/
  | nameNotUnique
  /-- An implementation implements no marked interface. -/
  | noExtensionPoint
  /-- Declarations contradict each other; the code of a report that lists how. -/
  | incoherentDeclarations
  /-- A type that was looked up is not a marked interface. -/
  | notAnExtensionPoint
deriving DecidableEq, Repr

namespace FaultCode

/-- Every code, in order. -/
def all : List FaultCode :=
  [unreadableManifest, unresolvedType, missingDependency, notAnInterface, notAConcreteClass,
    nameNotUnique, noExtensionPoint, incoherentDeclarations, notAnExtensionPoint]

/-- The place of a code in the order. -/
def rank : FaultCode → Nat
  | unreadableManifest => 0
  | unresolvedType => 1
  | missingDependency => 2
  | notAnInterface => 3
  | notAConcreteClass => 4
  | nameNotUnique => 5
  | noExtensionPoint => 6
  | incoherentDeclarations => 7
  | notAnExtensionPoint => 8

/-- The dotted word for a code. -/
def label : FaultCode → String
  | unreadableManifest => "load.ioe"
  | unresolvedType => "load.classnotfound"
  | missingDependency => "load.linkageerror"
  | notAnInterface => "declare.notaninterface"
  | notAConcreteClass => "declare.notaconcreteclass"
  | nameNotUnique => "declare.nonunique.name"
  | noExtensionPoint => "declare.nointerface"
  | incoherentDeclarations => "load.declare.all"
  | notAnExtensionPoint => "find.notanextensionpoint"

/-- The code with exactly this word. -/
def ofLabel? (text : String) : Option FaultCode := all.find? fun code => code.label = text

theorem mem_all (code : FaultCode) : code ∈ all := by cases code <;> decide

theorem rank_injective {a b : FaultCode} (h : a.rank = b.rank) : a = b := by
  cases a <;> cases b <;> first | rfl | cases h

theorem ofLabel?_label (code : FaultCode) : ofLabel? code.label = some code := by
  cases code <;> decide

end FaultCode

/-- A fault: its code and the arguments of its wording. -/
structure Fault where
  /-- What kind of fault it is. -/
  code : FaultCode
  /-- What the wording mentions, in order. -/
  args : List String
deriving DecidableEq, Repr

namespace Fault

/-- The argument at a place, or a question mark where there is none. -/
def arg (fault : Fault) (place : Nat) : String := fault.args.getD place "?"

/-- The fault in plain words. -/
def body (fault : Fault) : String :=
  let first := fault.arg 0
  let second := fault.arg 1
  let third := fault.arg 2
  match fault.code with
  | .unreadableManifest => s!"failed to read manifest resource {first}: {second}"
  | .unresolvedType =>
    let cause := match fault.args[2]? with
      | some cause => s!" ({cause})"
      | none => ""
    s!"type `{first}` listed at {second} could not be resolved{cause}"
  | .missingDependency =>
    s!"type `{first}` listed at {second} was skipped: dependency `{third}` could not be resolved"
  | .notAnInterface =>
    s!"`{first}` is declared as extension point `{second}` but is not an interface"
  | .notAConcreteClass =>
    s!"`{first}` is declared as implementation `{second}` but is not a concrete class"
  | .nameNotUnique =>
    let owners := ", ".intercalate (fault.args.drop 1)
    s!"name `{first}` is declared by more than one type: {owners}"
  | .noExtensionPoint =>
    s!"implementation `{first}` (`{second}`) does not implement any marked extension point"
  | .incoherentDeclarations => "; ".intercalate fault.args
  | .notAnExtensionPoint => s!"`{first}` is not a marked extension point interface"

/-- The fault in plain words, after its code. -/
def message (fault : Fault) : String := s!"[{fault.code.label}] {fault.body}"

/-! ## The order of faults -/

/-- One list of texts comes before another. -/
def argsBefore : List String → List String → Bool
  | _, [] => false
  | [], _ :: _ => true
  | a :: as, b :: bs => a < b || (a = b && argsBefore as bs)

/-- One fault comes before another. -/
def before (a b : Fault) : Bool :=
  a.code.rank < b.code.rank || (a.code = b.code && argsBefore a.args b.args)

theorem argsBefore_irrefl (as : List String) : argsBefore as as = false := by
  induction as with
  | nil => rfl
  | cons a as ih => simp [argsBefore, ih]

theorem argsBefore_trans {as bs cs : List String} (hab : argsBefore as bs = true)
    (hbc : argsBefore bs cs = true) : argsBefore as cs = true := by
  induction as generalizing bs cs with
  | nil =>
    cases bs <;> cases cs <;> simp_all [argsBefore]
  | cons a as ih =>
    cases bs with
    | nil => simp [argsBefore] at hab
    | cons b bs =>
      cases cs with
      | nil => simp [argsBefore] at hbc
      | cons c cs =>
        simp only [argsBefore, Bool.or_eq_true, Bool.and_eq_true, decide_eq_true_eq] at hab hbc ⊢
        rcases hab with hab | ⟨rfl, hab⟩ <;> rcases hbc with hbc | ⟨rfl, hbc⟩
        · exact .inl (String.lt_trans hab hbc)
        · exact .inl hab
        · exact .inl hbc
        · exact .inr ⟨rfl, ih hab hbc⟩

theorem argsBefore_trichotomy (as bs : List String) :
    argsBefore as bs = true ∨ as = bs ∨ argsBefore bs as = true := by
  induction as generalizing bs with
  | nil => cases bs <;> simp [argsBefore]
  | cons a as ih =>
    cases bs with
    | nil => simp [argsBefore]
    | cons b bs =>
      simp only [argsBefore, Bool.or_eq_true, Bool.and_eq_true, decide_eq_true_eq]
      rcases Std.lt_trichotomy a b with h | rfl | h
      · exact .inl (.inl h)
      · rcases ih bs with h | rfl | h
        · exact .inl (.inr ⟨rfl, h⟩)
        · exact .inr (.inl rfl)
        · exact .inr (.inr (.inr ⟨rfl, h⟩))
      · exact .inr (.inr (.inl h))

theorem before_irrefl (a : Fault) : before a a = false := by
  simp [before, argsBefore_irrefl]

theorem before_trans {a b c : Fault} (hab : before a b = true) (hbc : before b c = true) :
    before a c = true := by
  simp only [before, Bool.or_eq_true, Bool.and_eq_true, decide_eq_true_eq] at hab hbc ⊢
  rcases hab with hab | ⟨hab, hab'⟩ <;> rcases hbc with hbc | ⟨hbc, hbc'⟩
  · exact .inl (Nat.lt_trans hab hbc)
  · exact .inl (hbc ▸ hab)
  · exact .inl (hab ▸ hbc)
  · exact .inr ⟨hab.trans hbc, argsBefore_trans hab' hbc'⟩

theorem before_trichotomy (a b : Fault) : before a b = true ∨ a = b ∨ before b a = true := by
  simp only [before, Bool.or_eq_true, Bool.and_eq_true, decide_eq_true_eq]
  rcases Nat.lt_trichotomy a.code.rank b.code.rank with h | h | h
  · exact .inl (.inl h)
  · have hcode := FaultCode.rank_injective h
    rcases argsBefore_trichotomy a.args b.args with h | h | h
    · exact .inl (.inr ⟨hcode, h⟩)
    · cases a
      cases b
      simp_all
    · exact .inr (.inr (.inr ⟨hcode.symm, h⟩))
  · exact .inr (.inr (.inl h))

/-! ## Ordered collections of faults -/

/-- Faults that increase, so none occurs twice. -/
def Increasing (faults : List Fault) : Prop := faults.Pairwise fun a b => before a b = true

/-- Puts a fault into its place; one that is already there stays alone. -/
def insert (fault : Fault) : List Fault → List Fault
  | [] => [fault]
  | first :: rest =>
    if before fault first then fault :: first :: rest
    else if fault = first then first :: rest
    else first :: insert fault rest

theorem mem_insert {fault other : Fault} {faults : List Fault} :
    other ∈ insert fault faults ↔ other = fault ∨ other ∈ faults := by
  induction faults with
  | nil => simp [insert]
  | cons first rest ih =>
    unfold insert
    split
    · simp
    · split
      · next heq => subst heq; simp
      · simp only [List.mem_cons, ih]
        exact or_left_comm

theorem increasing_insert {fault : Fault} {faults : List Fault} (h : Increasing faults) :
    Increasing (insert fault faults) := by
  induction faults with
  | nil => exact List.pairwise_singleton _ _
  | cons first rest ih =>
    have hrest := List.pairwise_cons.1 h
    unfold insert
    split
    · next hbefore =>
      refine List.pairwise_cons.2 ⟨fun other hother => ?_, h⟩
      rcases List.mem_cons.1 hother with rfl | hother
      · exact hbefore
      · exact before_trans hbefore (hrest.1 other hother)
    · next hbefore =>
      split
      · exact h
      · next hne =>
        refine List.pairwise_cons.2 ⟨fun other hother => ?_, ih hrest.2⟩
        rcases mem_insert.1 hother with rfl | hother
        · rcases before_trichotomy other first with h | h | h
          · exact absurd h hbefore
          · exact absurd h hne
          · exact h
        · exact hrest.1 other hother

end Fault

/-- What a failed load reports: a code and all its faults, each once and in order. -/
structure FaultReport where
  /-- The code of the failure as a whole. -/
  code : FaultCode
  /-- The faults. -/
  faults : List Fault
  /-- They increase, so none occurs twice. -/
  increasing : Fault.Increasing faults
deriving DecidableEq

namespace FaultReport

/-- The report of a fault that ended the load at once; it has the code of the fault. -/
def fatal (fault : Fault) : FaultReport where
  code := fault.code
  faults := [fault]
  increasing := List.pairwise_singleton _ _

/-- Faults put in order, each once. -/
def collect : (faults : List Fault) → { collected : List Fault // Fault.Increasing collected }
  | [] => ⟨[], List.Pairwise.nil⟩
  | fault :: rest => ⟨Fault.insert fault (collect rest), Fault.increasing_insert (collect rest).2⟩

/-- The report of declarations that contradict each other. -/
def declarations (faults : List Fault) : FaultReport where
  code := .incoherentDeclarations
  faults := collect faults
  increasing := (collect faults).2

/-- The number of faults. -/
def size (report : FaultReport) : Nat := report.faults.length

/-- Whether there is no fault. -/
def isEmpty (report : FaultReport) : Bool := report.faults.isEmpty

/-- The faults of one code, in order. -/
def withCode (report : FaultReport) (code : FaultCode) : List Fault :=
  report.faults.filter (·.code = code)

/-- The report in plain words. -/
def message (report : FaultReport) : String :=
  let faults := "; ".intercalate (report.faults.map Fault.message)
  s!"{report.code.label}: {faults}"

theorem mem_collect {fault : Fault} {faults : List Fault} :
    fault ∈ (collect faults).1 ↔ fault ∈ faults := by
  induction faults with
  | nil => rfl
  | cons first rest ih => simp [collect, Fault.mem_insert, ih]

end FaultReport

end PluginDiscovery
