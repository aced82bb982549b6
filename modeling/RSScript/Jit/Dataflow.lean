import RSScript.Jit.Ir
import RSScript.Lib.FlowGraph
import RSScript.Lib.Reachability
import RSScript.Lib.Recompute
import Mathlib.Algebra.Group.Action.Defs
import Mathlib.Data.Finset.Card

/-!
# Reachability, definite assignment and liveness

The three analyses validation rests on. The `reg -> bool` vectors of the source
are sets of registers below `n_regs`. What the analyses are for is said by the
paths of the control-flow graph, whose edges are labelled with the register they
write: definite assignment finds exactly the registers that every path from the
entry assigns (`mem_definiteAssignment`), and liveness finds every register that
some path reads before it writes it (`mem_registerLiveness`).
-/

namespace Jit

open Recompute List Finset

namespace JitFunction

variable (program : JitFunction)

/-! ## Reachable instructions -/

/-- `reachable_jit_instrs`: a depth-first search from instruction 0. -/
def reachableJitInstrs : Finset Nat :=
  if program.code.isEmpty then ∅
  else Reachability.search program.successors (2 * program.code.length + 1) [0] ∅

variable {program}

theorem length_successors_le : (program.successors ip).length ≤ 2 := by
  cases hget : program.code[ip]? with
  | none => simp [successors, hget]
  | some instr =>
    rw [successors_eq hget]
    refine (length_filter_le _ _).trans ?_
    cases instr.controlFlow <;> simp [targets]

theorem unseenEdges_le (program : JitFunction) :
    Reachability.unseenEdges program.successors program.code.length ∅ ≤
      2 * program.code.length := by
  have h := sum_le_card_nsmul (range program.code.length \ ∅)
    (fun node => (program.successors node).length) 2 (fun node _ => length_successors_le)
  simpa [Reachability.unseenEdges, Nat.mul_comm] using h

variable {ip : Nat}

theorem mem_reachableJitInstrs : ip ∈ program.reachableJitInstrs ↔ 0 < program.code.length ∧
      Relation.ReflTransGen (Reachability.Step program.successors) 0 ip := by
  unfold reachableJitInstrs
  by_cases hnil : program.code = []
  · simp [hnil]
  · have hlt : 0 < program.code.length := length_pos_iff.mpr hnil
    have hsize : ∀ node < program.code.length, ∀ target ∈ program.successors node,
        target < program.code.length := fun _ _ _ h => successors_lt h
    have hfuel : 1 + Reachability.unseenEdges program.successors program.code.length ∅ ≤
        2 * program.code.length + 1 := by
      have := unseenEdges_le program
      omega
    rw [if_neg (by simpa using hnil), Reachability.mem_search hsize hlt hfuel]
    simp [hlt]

theorem reachable_lt (h : ip ∈ program.reachableJitInstrs) : ip < program.code.length := by
  obtain ⟨hlt, hreach⟩ := mem_reachableJitInstrs.mp h
  rcases Relation.ReflTransGen.cases_tail hreach with rfl | ⟨_, _, hstep⟩
  · exact hlt
  · exact successors_lt hstep

theorem reachable_zero (h : 0 < program.code.length) : 0 ∈ program.reachableJitInstrs :=
  mem_reachableJitInstrs.mpr ⟨h, .refl⟩

variable {target : Nat}

theorem reachable_successor (h : ip ∈ program.reachableJitInstrs)
    (htarget : target ∈ program.successors ip) : target ∈ program.reachableJitInstrs := by
  obtain ⟨hlt, hreach⟩ := mem_reachableJitInstrs.mp h
  exact mem_reachableJitInstrs.mpr ⟨hlt, hreach.tail htarget⟩

/-! ## Paths -/

/-- The control-flow graph; an edge is labelled with the register it writes. -/
def flow (program : JitFunction) : FlowGraph.Flow Nat Nat where
  entry := 0
  Edge source written target := (target, written) ∈ program.edges source

/-- A path from the entry to an instruction, with the registers it wrote. -/
abbrev Path (program : JitFunction) (written : List Nat) (ip : Nat) : Prop :=
  FlowGraph.Run program.flow written ip

theorem reachable_of_path (hlt : 0 < program.code.length) (h : program.Path written ip) :
    ip ∈ program.reachableJitInstrs := by
  induction h with
  | entry => exact reachable_zero hlt
  | step _ edge ih => exact reachable_successor ih (mem_successors_of_edge edge)

/-- The registers an entry of the function assigns: the parameters and the
zero-initialised scratch, or the whole window of an OSR entry. -/
def entryRegisters (program : JitFunction) (osrEntry : Bool) : Finset Nat :=
  if osrEntry then Finset.range program.nRegs
  else (Finset.range program.nRegs).filter fun reg =>
    reg < program.nParams ∨ reg ∈ program.zeroInitRegs

/-- Assigned at the entry or on the path. -/
def Assigned (program : JitFunction) (osrEntry : Bool) (written : List Nat) (reg : Nat) : Prop :=
  reg ∈ program.entryRegisters osrEntry ∨ reg ∈ written

/-- Some path from the instruction reads the register before it writes it. -/
inductive ReadsBeforeWriting (program : JitFunction) (reg : Nat) : Nat → Prop
  | read {ip : Nat} {instr : JitInstr} (hget : program.code[ip]? = some instr)
      (hused : reg ∈ instr.usedRegisters) : ReadsBeforeWriting program reg ip
  | pass {ip target : Nat} {written : Option Nat} (hedge : (target, written) ∈ program.edges ip)
      (hother : written ≠ some reg) (hrest : ReadsBeforeWriting program reg target) :
      ReadsBeforeWriting program reg ip

/-! ## Definite assignment -/

variable {reg : Nat}

section Assignment

variable (program)

/-- The register an edge between two instructions definitely writes. -/
def edgeDef (source target : Nat) : Option Nat :=
  match program.code[source]? with
  | none => none
  | some instr =>
    match instr.mapMatch with
    | some (valueDst, someIp, noneIp) =>
      if target = someIp ∧ someIp ≠ noneIp then some valueDst else none
    | none => instr.definedRegister

/-- The intersection over the predecessors. An instruction without predecessors
keeps the full set it starts with. -/
def assignmentSystem : System (Finset Nat) where
  recompute assignedIn ip := (Finset.range program.nRegs).filter fun reg =>
    ∀ source ∈ program.predecessors ip, reg ∈ assignedIn source ∨ program.edgeDef source ip = some reg
  dependents ip := (program.successors ip).filter (· ≠ 0)

/-- Instruction 0 is pinned to the entry set; all others start at the full set and are queued. -/
def assignmentStart (osrEntry : Bool) : State (Finset Nat) where
  facts ip := if ip = 0 then program.entryRegisters osrEntry else Finset.range program.nRegs
  queued ip := 0 < ip && ip < program.code.length
  pending := List.range' 1 (program.code.length - 1)

/-- Visits enough for every register to leave every set. -/
def analysisFuel : Nat :=
  program.code.length * program.nRegs * (program.code.length + 1) + program.code.length

def assignment (osrEntry : Bool) : State (Finset Nat) :=
  program.assignmentSystem.run program.analysisFuel (program.assignmentStart osrEntry)

/-- `definite_assignment`: the registers assigned on entry to each instruction. -/
def definiteAssignment (osrEntry : Bool) : List (Finset Nat) :=
  (List.range program.code.length).map (program.assignment osrEntry).facts

variable {program}

/-- Off the map lookups every edge is labelled with the register the instruction defines. -/
theorem label_of_edge (hget : program.code[source]? = some instr) (hmatch : instr.mapMatch = none)
    (hedge : (target, written) ∈ program.edges source) : written = instr.definedRegister := by
  rw [edges_eq hget] at hedge
  have hedge := (mem_filter.mp hedge).1
  cases hflow : instr.controlFlow with
  | split first second =>
    -- only the fused lookups split the control flow
    cases instr <;> simp [JitInstr.controlFlow, JitInstr.mapMatch] at hflow hmatch
  | _ =>
    simp only [hflow, List.mem_map] at hedge
    obtain ⟨_, _, heq⟩ := hedge
    exact (Prod.mk.inj heq).2.symm

/-- An edge that definitely writes a register is labelled with it. -/
theorem written_of_edgeDef (h : program.edgeDef source target = some reg)
    (hedge : (target, written) ∈ program.edges source) : written = some reg := by
  cases hget : program.code[source]? with
  | none => simp [edges, hget] at hedge
  | some instr =>
    simp only [edgeDef, hget] at h
    cases hmatch : instr.mapMatch with
    | none =>
      simp only [hmatch] at h
      rw [label_of_edge hget hmatch hedge, h]
    | some found =>
      obtain ⟨valueDst, someIp, noneIp⟩ := found
      obtain ⟨hflow, hdefined⟩ := JitInstr.split_of_mapMatch hmatch
      simp only [hmatch] at h
      split at h
      · rename_i hsome
        obtain ⟨rfl, hne⟩ := hsome
        rw [edges_eq hget] at hedge
        have hedge := (mem_filter.mp hedge).1
        simp only [hflow, List.mem_cons, not_mem_nil, or_false, Prod.mk.injEq, true_and,
          hne, false_and, hdefined] at hedge
        rw [hedge, h]
      · simp at h

/-- Where no edge definitely writes a register, some edge does not write it. -/
theorem exists_edge_not_writing (h : program.edgeDef source target ≠ some reg)
    (htarget : target ∈ program.successors source) :
    ∃ written, (target, written) ∈ program.edges source ∧ written ≠ some reg := by
  cases hget : program.code[source]? with
  | none => simp [successors, hget] at htarget
  | some instr =>
    simp only [edgeDef, hget] at h
    cases hmatch : instr.mapMatch with
    | none =>
      simp only [hmatch] at h
      obtain ⟨written, hedge⟩ := exists_edge htarget
      refine ⟨written, hedge, fun heq => h ?_⟩
      rw [← label_of_edge hget hmatch hedge, heq]
    | some found =>
      obtain ⟨valueDst, someIp, noneIp⟩ := found
      obtain ⟨hflow, hdefined⟩ := JitInstr.split_of_mapMatch hmatch
      have hlt := successors_lt htarget
      rw [successors_eq hget, hflow] at htarget
      have htarget := (mem_filter.mp htarget).1
      simp only [targets, List.mem_cons, not_mem_nil, or_false] at htarget
      simp only [hmatch] at h
      -- a lookup whose targets differ writes on the `Some` edge; otherwise the `None` edge is there
      by_cases hnone : target = noneIp
      · refine ⟨none, ?_, by simp⟩
        rw [edges_eq hget]
        exact mem_filter.mpr ⟨by simp [hflow, hnone], by simpa using hlt⟩
      · have hsome : target = someIp := by tauto
        have hne : someIp ≠ noneIp := fun heq => hnone (hsome.trans heq)
        rw [if_pos ⟨hsome, hne⟩] at h
        refine ⟨some valueDst, ?_, h⟩
        rw [edges_eq hget]
        exact mem_filter.mpr ⟨by simp [hflow, hsome, hdefined], by simpa using hlt⟩

/-- The instructions the analysis queues. -/
def Queued (program : JitFunction) (ip : Nat) : Prop := 0 < ip ∧ ip < program.code.length

theorem assignment_local : System.Local program.assignmentSystem (Queued program) where
  reads assignedIn ip assigned other hother hindep := by
    have hnot : ip ∉ program.predecessors other := by
      intro hmem
      refine hindep (List.mem_filter.mpr ⟨mem_predecessors.mp hmem, ?_⟩)
      simpa using Nat.pos_iff_ne_zero.mp hother.1
    ext reg
    simp only [assignmentSystem, Finset.mem_filter, and_congr_right_iff]
    intro _
    refine forall₂_congr fun source hsource => ?_
    have hne : source ≠ ip := by
      rintro rfl
      exact hnot hsource
    rw [Function.update_of_ne hne]
  closed ip _ other hdep := by
    obtain ⟨htarget, hne⟩ := List.mem_filter.mp hdep
    exact ⟨Nat.pos_of_ne_zero (by simpa using hne), successors_lt htarget⟩

theorem assignment_monotone : System.Monotone program.assignmentSystem (· ⊆ ·) where
  refl _ := Finset.Subset.refl _
  trans := Finset.Subset.trans
  mono {facts facts'} hle ip := by
    intro reg hreg
    simp only [assignmentSystem, Finset.mem_filter] at hreg ⊢
    refine ⟨hreg.1, fun source hsource => ?_⟩
    exact (hreg.2 source hsource).imp_left fun h => hle source h

theorem assignment_settling :
    System.Settling program.assignmentSystem (Queued program) (program.assignmentStart osrEntry) := by
  have hmem : ∀ ip, ip ∈ (program.assignmentStart osrEntry).pending ↔ Queued program ip := by
    intro ip
    simp only [assignmentStart, mem_range'_1, Queued]
    omega
  refine ⟨⟨nodup_range', fun ip => ?_⟩, fun ip h => (hmem ip).mp h,
    fun ip h => .inl ((hmem ip).mpr h)⟩
  rw [hmem]
  simp [assignmentStart, Queued]

theorem entryRegisters_subset : program.entryRegisters osrEntry ⊆ Finset.range program.nRegs := by
  unfold entryRegisters
  split
  · exact Finset.Subset.refl _
  · exact filter_subset _ _

/-- The worklist runs empty. -/
theorem assignment_pending : (program.assignment osrEntry).pending = [] := by
  refine System.run_pending program.code.length card assignment_local assignment_monotone
    assignment_settling ?_ ?_ (fun _ h => h.2) ?_
  · intro ip hip
    simp only [assignmentStart, if_neg (Nat.pos_iff_ne_zero.mp hip.1)]
    exact filter_subset _ _
  · intro assignedIn ip hle hne
    exact card_lt_card (Finset.ssubset_iff_subset_ne.mpr ⟨hle, hne⟩)
  · have hcard : ∀ ip ∈ Finset.range program.code.length,
        ((program.assignmentStart osrEntry).facts ip).card ≤ program.nRegs := by
      intro ip _
      refine (card_le_card ?_).trans (card_range _).le
      simp only [assignmentStart]
      split
      · exact entryRegisters_subset
      · exact Finset.Subset.refl _
    have htotal := sum_le_card_nsmul _ _ _ hcard
    rw [card_range] at htotal
    have hlength : (program.assignmentStart osrEntry).pending.length ≤ program.code.length := by
      simp [assignmentStart]
    exact Nat.add_le_add (Nat.mul_le_mul_right _ htotal) hlength

/-- The fact of an instruction other than the first is the one of its predecessors. -/
theorem mem_assignment (hip : Queued program ip) :
    reg ∈ (program.assignment osrEntry).facts ip ↔ reg < program.nRegs ∧
      ∀ source ∈ program.predecessors ip, reg ∈ (program.assignment osrEntry).facts source ∨
        program.edgeDef source ip = some reg := by
  have hfixed : program.assignmentSystem.recompute (program.assignment osrEntry).facts ip =
      (program.assignment osrEntry).facts ip :=
    System.run_fixed assignment_local assignment_settling assignment_pending hip
  rw [← Finset.ext_iff.mp hfixed reg]
  simp [assignmentSystem]

theorem assignment_zero :
    (program.assignment osrEntry).facts 0 = program.entryRegisters osrEntry := by
  rw [assignment, System.run_facts_of_not assignment_local assignment_settling (by simp [Queued])]
  simp [assignmentStart]

/-- A register of the analysis is assigned on every path. -/
theorem assigned_of_mem {written : List Nat} (hpath : program.Path written ip)
    (h : reg ∈ (program.assignment osrEntry).facts ip) : program.Assigned osrEntry written reg := by
  induction hpath with
  | entry =>
    have hentry : reg ∈ (program.assignment osrEntry).facts 0 := h
    rw [assignment_zero] at hentry
    exact .inl hentry
  | @step written source target label _ edge ih =>
    have htarget := mem_successors_of_edge edge
    rcases Nat.eq_zero_or_pos target with rfl | hpos
    · rw [assignment_zero] at h
      exact .inl h
    · obtain ⟨_, hall⟩ := (mem_assignment ⟨hpos, successors_lt htarget⟩).mp h
      rcases hall source (mem_predecessors.mpr htarget) with hsource | hdef
      · exact (ih hsource).imp_right (mem_append_left _)
      · rw [written_of_edgeDef hdef edge]
        exact .inr (by simp)

open Classical in
/-- A register assigned on every path is one of the analysis: the sets of such
registers lie below their own equations. -/
theorem mem_of_assigned (hreg : reg < program.nRegs)
    (h : ∀ written, program.Path written ip → program.Assigned osrEntry written reg) :
    reg ∈ (program.assignment osrEntry).facts ip := by
  let onAllPaths (ip : Nat) : Finset Nat := (Finset.range program.nRegs).filter fun reg =>
    ∀ written, program.Path written ip → program.Assigned osrEntry written reg
  have hbelow : ∀ ip, Queued program ip →
      onAllPaths ip ⊆ program.assignmentSystem.recompute onAllPaths ip := by
    intro ip hip reg hreg
    obtain ⟨hlt, hall⟩ := Finset.mem_filter.mp hreg
    refine mem_filter.mpr ⟨hlt, fun source hsource => ?_⟩
    by_cases hdef : program.edgeDef source ip = some reg
    · exact .inr hdef
    · left
      obtain ⟨label, hedge, hother⟩ := exists_edge_not_writing hdef (mem_predecessors.mp hsource)
      refine mem_filter.mpr ⟨hlt, fun written hpath => ?_⟩
      rcases hall _ (hpath.step hedge) with hentry | hwritten
      · exact .inl hentry
      · rcases mem_append.mp hwritten with hwritten | hlabel
        · exact .inr hwritten
        · exact absurd (Option.mem_toList.mp hlabel) hother
  have hstart : ∀ ip, onAllPaths ip ⊆ (program.assignmentStart osrEntry).facts ip := by
    intro ip reg hreg
    obtain ⟨hlt, hall⟩ := Finset.mem_filter.mp hreg
    simp only [assignmentStart]
    split
    · rename_i hzero
      subst hzero
      exact (hall [] .entry).resolve_right (by simp)
    · exact hlt
  exact System.run_above assignment_local assignment_monotone assignment_settling hbelow hstart (Finset.mem_filter.mpr ⟨Finset.mem_range.mpr hreg, h⟩)

/-- Definite assignment is exact: the registers that every path assigns. -/
theorem mem_definiteAssignment (hip : ip < program.code.length) (hreg : reg < program.nRegs) :
    reg ∈ (program.definiteAssignment osrEntry).getD ip ∅ ↔
      ∀ written, program.Path written ip → program.Assigned osrEntry written reg := by
  simp only [definiteAssignment, getD_eq_getElem?_getD, getElem?_map,
    getElem?_range hip, Option.map_some, Option.getD_some]
  exact ⟨fun h written hpath => assigned_of_mem hpath h, mem_of_assigned hreg⟩

end Assignment

/-! ## Liveness -/

section Liveness

variable (program)

/-- The registers an instruction reads; one out of range is left out. -/
def usesAt (ip : Nat) : Finset Nat :=
  match program.code[ip]? with
  | some instr => (Finset.range program.nRegs).filter (· ∈ instr.usedRegisters)
  | none => ∅

/-- The register an instruction overwrites on every way out of it: a lookup's value is not. -/
def killAt (ip : Nat) : Option Nat :=
  match program.code[ip]? with
  | some instr => if instr.mapMatch.isSome then none else instr.definedRegister
  | none => none

def livenessSystem : System (Finset Nat) where
  recompute liveIn ip := program.usesAt ip ∪ (Finset.range program.nRegs).filter fun reg =>
    ∃ target ∈ program.successors ip, reg ∈ liveIn target ∧ program.killAt ip ≠ some reg
  dependents ip := program.predecessors ip

/-- Nothing is live yet, and every instruction is queued, the last one first. -/
def livenessStart : State (Finset Nat) where
  facts _ := ∅
  queued ip := ip < program.code.length
  pending := (List.range program.code.length).reverse

def liveness : State (Finset Nat) :=
  program.livenessSystem.run program.analysisFuel program.livenessStart

/-- `register_liveness`: the registers whose value may be read before being overwritten. -/
def registerLiveness : List (Finset Nat) :=
  (List.range program.code.length).map program.liveness.facts

variable {program}

theorem usesAt_subset : program.usesAt ip ⊆ Finset.range program.nRegs := by
  unfold usesAt
  split
  · exact filter_subset _ _
  · exact empty_subset _

theorem liveness_recompute_subset :
    program.livenessSystem.recompute liveIn ip ⊆ Finset.range program.nRegs :=
  union_subset usesAt_subset (filter_subset _ _)

theorem liveness_local : System.Local program.livenessSystem (· < program.code.length) where
  reads liveIn ip live other _ hindep := by
    have hnot : ip ∉ program.successors other := fun h => hindep (mem_predecessors.mpr h)
    have hsame : ∀ reg, (∃ target ∈ program.successors other,
        reg ∈ Function.update liveIn ip live target ∧ program.killAt other ≠ some reg) ↔
        ∃ target ∈ program.successors other, reg ∈ liveIn target ∧ program.killAt other ≠ some reg := by
      intro reg
      refine exists_congr fun target => and_congr_right fun htarget => ?_
      have hne : target ≠ ip := by
        rintro rfl
        exact hnot htarget
      rw [Function.update_of_ne hne]
    simp only [livenessSystem, hsame]
  closed ip _ other hdep := lt_of_mem_successors (mem_predecessors.mp hdep)

/-- The sets of live registers grow. -/
theorem liveness_monotone : System.Monotone program.livenessSystem (· ⊇ ·) where
  refl _ := Subset.refl _
  trans hab hbc := Subset.trans hbc hab
  mono {facts facts'} hle ip := by
    refine union_subset_union_right fun reg hreg => ?_
    obtain ⟨hlt, target, htarget, hlive, hkill⟩ := Finset.mem_filter.mp hreg
    exact mem_filter.mpr ⟨hlt, target, htarget, hle target hlive, hkill⟩

theorem liveness_settling :
    System.Settling program.livenessSystem (· < program.code.length) program.livenessStart := by
  have hmem : ∀ ip, ip ∈ program.livenessStart.pending ↔ ip < program.code.length := by
    simp [livenessStart]
  refine ⟨⟨nodup_reverse.mpr nodup_range, fun ip => ?_⟩, fun ip h => (hmem ip).mp h,
    fun ip h => .inl ((hmem ip).mpr h)⟩
  simp [livenessStart]

theorem liveness_pending : program.liveness.pending = [] := by
  refine System.run_pending program.code.length
    (fun live => (Finset.range program.nRegs \ live).card) liveness_local liveness_monotone
    liveness_settling (fun _ _ => empty_subset _) ?_ (fun _ h => h) ?_
  · intro liveIn ip hle hne
    have hstrict := Finset.ssubset_iff_subset_ne.mpr ⟨hle, hne.symm⟩
    obtain ⟨reg, hreg, hfresh⟩ := exists_of_ssubset hstrict
    apply card_lt_card
    refine (ssubset_iff_of_subset (sdiff_subset_sdiff (Subset.refl _) hle)).mpr
      ⟨reg, ?_, ?_⟩
    · exact mem_sdiff.mpr ⟨liveness_recompute_subset hreg, hfresh⟩
    · simp [hreg]
  · have htotal : System.total program.code.length
        (fun live => (Finset.range program.nRegs \ live).card) program.livenessStart.facts =
          program.code.length * program.nRegs := by
      simp [System.total, livenessStart]
    have hlength : program.livenessStart.pending.length = program.code.length := by
      simp [livenessStart]
    unfold System.budget
    rw [htotal, hlength]
    rfl

theorem mem_liveness (hip : ip < program.code.length) :
    reg ∈ program.liveness.facts ip ↔ reg ∈ program.usesAt ip ∨ reg < program.nRegs ∧
      ∃ target ∈ program.successors ip, reg ∈ program.liveness.facts target ∧
        program.killAt ip ≠ some reg := by
  have hfixed : program.livenessSystem.recompute program.liveness.facts ip =
      program.liveness.facts ip :=
    System.run_fixed liveness_local liveness_settling liveness_pending hip
  rw [← Finset.ext_iff.mp hfixed reg]
  simp [livenessSystem]

/-- What an instruction overwrites on every way out is on the label of each of its edges. -/
theorem written_of_killAt (h : program.killAt ip = some reg)
    (hedge : (target, written) ∈ program.edges ip) : written = some reg := by
  refine written_of_edgeDef ?_ hedge
  cases hget : program.code[ip]? with
  | none => simp [killAt, hget] at h
  | some instr =>
    simp only [killAt, hget] at h
    cases hmatch : instr.mapMatch with
    | none => simpa [edgeDef, hget, hmatch] using h
    | some found => simp [hmatch] at h

/-- Liveness covers every register that some path reads before writing it. -/
theorem mem_registerLiveness (hreg : reg < program.nRegs) (h : program.ReadsBeforeWriting reg ip) :
    reg ∈ program.registerLiveness.getD ip ∅ := by
  suffices hlive : ip < program.code.length ∧ reg ∈ program.liveness.facts ip by
    simpa [registerLiveness, getD_eq_getElem?_getD, getElem?_range hlive.1] using hlive.2
  induction h with
  | @read ip instr hget hused =>
    have hip := (List.getElem?_eq_some_iff.mp hget).1
    refine ⟨hip, (mem_liveness hip).mpr (.inl ?_)⟩
    simp [usesAt, hget, hreg, hused]
  | pass hedge hother _ ih =>
    have htarget := mem_successors_of_edge hedge
    have hip := lt_of_mem_successors htarget
    refine ⟨hip, (mem_liveness hip).mpr (.inr ⟨hreg, _, htarget, ih.2, fun hkill => ?_⟩)⟩
    exact hother (written_of_killAt hkill hedge)

end Liveness

end JitFunction

end Jit
