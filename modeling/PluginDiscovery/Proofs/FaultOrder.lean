import Mathlib.Data.List.Basic
import PluginDiscovery.Fault
import PluginDiscovery.Proofs.Bytes

/-!
# The order of a report

`Fault.Precedes` is the order of faults as it is meant: by the codes as they are declared, and among
faults of one code by the arguments, as lists of texts that are ordered by their bytes. It is what
`Fault.before` decides (`before_eq_true_iff`). Faults that increase in this order are told by which
faults they are (`Increasing.eq_of_mem_iff`), so a report does not depend on how its faults were
found: `declarations_in_order` says what a report is of any list of faults.
-/

namespace PluginDiscovery

theorem FaultCode.idxOf_all (code : FaultCode) : all.idxOf code = code.rank := by
  cases code <;> rfl

theorem FaultCode.pairwise_all : all.Pairwise fun a b => all.idxOf a < all.idxOf b := by
  decide

namespace Fault

/-- One fault comes before another: its code is declared earlier, or the codes are the same and its
arguments come earlier. A list comes before all that go on from it. -/
def Precedes (a b : Fault) : Prop :=
  FaultCode.all.idxOf a.code < FaultCode.all.idxOf b.code ∨
    a.code = b.code ∧ List.Lex (fun s t => bytesOf s < bytesOf t) a.args b.args

theorem argsBefore_eq_true_iff {as bs : List String} :
    argsBefore as bs = true ↔ List.Lex (fun s t => bytesOf s < bytesOf t) as bs := by
  induction as generalizing bs with
  | nil =>
    cases bs with
    | nil => simp [argsBefore]
    | cons b bs => simp [argsBefore]
  | cons a as ih =>
    cases bs with
    | nil => simp [argsBefore]
    | cons b bs =>
      simp only [argsBefore, Bool.or_eq_true, Bool.and_eq_true, decide_eq_true_eq, ih]
      constructor
      · rintro (hlt | ⟨rfl, hrest⟩)
        · exact .rel (bytesOf_lt_iff.2 hlt)
        · exact .cons hrest
      · intro h
        cases h with
        | rel hlt => exact .inl (bytesOf_lt_iff.1 hlt)
        | cons hrest => exact .inr ⟨rfl, hrest⟩

theorem before_eq_true_iff {a b : Fault} : before a b = true ↔ Precedes a b := by
  unfold before Precedes
  rw [FaultCode.idxOf_all, FaultCode.idxOf_all, ← argsBefore_eq_true_iff]
  simp only [Bool.or_eq_true, Bool.and_eq_true, decide_eq_true_eq]

theorem before_asymm {a b : Fault} (hab : before a b = true) : ¬before b a = true := by
  intro hba
  have haa := before_trans hab hba
  rw [before_irrefl] at haa
  cases haa

theorem increasing_iff {faults : List Fault} : Increasing faults ↔ faults.Pairwise Precedes :=
  List.Pairwise.iff fun _ _ => before_eq_true_iff

namespace Increasing

variable {faults others : List Fault}

theorem nodup (h : Increasing faults) : faults.Nodup := by
  refine List.Pairwise.imp (fun {a b} hbefore heq => ?_) h
  rw [heq, before_irrefl] at hbefore
  cases hbefore

/-- Faults in order are told by which faults they are. -/
theorem eq_of_mem_iff (h : Increasing faults) (hothers : Increasing others)
    (hmem : ∀ fault, fault ∈ faults ↔ fault ∈ others) : faults = others := by
  have hperm : faults.Perm others := (List.perm_ext_iff_of_nodup h.nodup hothers.nodup).2 hmem
  refine hperm.eq_of_pairwise ?_ h hothers
  intro a b _ _ hab hba
  exact absurd hba (before_asymm hab)

end Increasing

end Fault

namespace FaultReport

variable {faults : List Fault}

theorem mem_faults_declarations {fault : Fault} :
    fault ∈ (declarations faults).faults ↔ fault ∈ faults :=
  mem_collect

/-- A report holds as many faults as there are distinct ones. -/
theorem size_declarations {distinct : List Fault} (hnodup : distinct.Nodup)
    (hmem : ∀ fault, fault ∈ distinct ↔ fault ∈ faults) :
    (declarations faults).size = distinct.length := by
  refine List.Perm.length_eq ((List.perm_ext_iff_of_nodup ?_ hnodup).2 fun fault => ?_)
  · exact (declarations faults).increasing.nodup
  · exact mem_faults_declarations.trans (hmem fault).symm

/-- A report keeps faults as they are that are in order already. -/
theorem faults_declarations_of_increasing (h : Fault.Increasing faults) :
    (declarations faults).faults = faults :=
  (declarations faults).increasing.eq_of_mem_iff h fun _ => mem_faults_declarations

/-- Reports of contradicting declarations are the same if they are about the same faults. -/
theorem declarations_eq_iff {others : List Fault} :
    declarations others = declarations faults ↔ ∀ fault, fault ∈ others ↔ fault ∈ faults := by
  constructor
  · intro heq fault
    rw [← mem_faults_declarations, heq, mem_faults_declarations]
  · intro hmem
    have hfaults : (declarations others).faults = (declarations faults).faults := by
      refine (declarations others).increasing.eq_of_mem_iff (declarations faults).increasing ?_
      intro fault
      rw [mem_faults_declarations, mem_faults_declarations]
      exact hmem fault
    simpa [declarations] using hfaults

/-- The faults of a report, code by code, are its faults in order. -/
theorem flatMap_withCode (report : FaultReport) :
    FaultCode.all.flatMap report.withCode = report.faults := by
  refine Fault.Increasing.eq_of_mem_iff ?_ report.increasing ?_
  · rw [Fault.increasing_iff, List.pairwise_flatMap]
    constructor
    · intro code _
      exact (Fault.increasing_iff.1 report.increasing).filter _
    · refine FaultCode.pairwise_all.imp ?_
      intro code later hlt fault hfault other hother
      have hcode : fault.code = code := by simpa using (List.mem_filter.1 hfault).2
      have hlater : other.code = later := by simpa using (List.mem_filter.1 hother).2
      left
      rw [hcode, hlater]
      exact hlt
  · intro fault
    rw [List.mem_flatMap]
    constructor
    · rintro ⟨code, -, hfault⟩
      exact (List.mem_filter.1 hfault).1
    · intro hfault
      exact ⟨fault.code, FaultCode.mem_all _, List.mem_filter.2 ⟨hfault, decide_eq_true rfl⟩⟩

/-- The report of a list of faults holds its members, each once and in order. So it is the same for
all lists of these members and reads the same, and the faults of each code, one code after the
other, make up the whole report. -/
theorem declarations_in_order (faults : List Fault) :
    ((declarations faults).faults.Pairwise Fault.Precedes ∧
        (declarations faults).faults.Nodup ∧
        ∀ fault, fault ∈ (declarations faults).faults ↔ fault ∈ faults) ∧
      (∀ others, declarations others = declarations faults ↔
        ∀ fault, fault ∈ others ↔ fault ∈ faults) ∧
      (∀ others, (∀ fault, fault ∈ others ↔ fault ∈ faults) →
        (declarations others).message = (declarations faults).message) ∧
      FaultCode.all.flatMap (declarations faults).withCode = (declarations faults).faults := by
  have hincreasing := (declarations faults).increasing
  refine ⟨⟨?_, ?_, ?_⟩, ?_, ?_, ?_⟩
  · exact Fault.increasing_iff.1 hincreasing
  · exact hincreasing.nodup
  · intro fault
    exact mem_faults_declarations
  · intro others
    exact declarations_eq_iff
  · intro others hmem
    rw [declarations_eq_iff.2 hmem]
  · exact flatMap_withCode _

/-- Faults of two codes, two of them with arguments of which one goes on, and one of them twice. -/
def shuffled : List Fault :=
  [⟨.noExtensionPoint, ["acme.A", "a"]⟩, ⟨.nameNotUnique, ["twin", "acme.A", "acme.B"]⟩,
    ⟨.noExtensionPoint, ["acme.A", "a"]⟩, ⟨.nameNotUnique, ["twin", "acme.A"]⟩]

theorem message_of_shuffled :
    (∀ fault, fault ∈ shuffled.reverse ↔ fault ∈ shuffled) ∧
      (declarations shuffled.reverse).message = (declarations shuffled).message ∧
      (declarations shuffled).faults = [⟨.nameNotUnique, ["twin", "acme.A"]⟩,
        ⟨.nameNotUnique, ["twin", "acme.A", "acme.B"]⟩, ⟨.noExtensionPoint, ["acme.A", "a"]⟩] := by
  have hmem : ∀ fault, fault ∈ shuffled.reverse ↔ fault ∈ shuffled := fun _ => List.mem_reverse
  obtain ⟨-, -, hmessage, -⟩ := declarations_in_order shuffled
  exact ⟨hmem, hmessage _ hmem, by decide +kernel⟩

end FaultReport

end PluginDiscovery
