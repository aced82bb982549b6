import RSScript.Jit.Intervals
import Mathlib.Data.List.GetD

/-!
# Soundness and termination of the range analysis

`Covers row regs` says that every register word lies in its interval. One
instruction takes a covering row to a covering row (`covers_outOf`), and so does
the refinement along the edge it takes (`covers_refineEdge`); the rest is that the
first phase ends in rows that contain what flows into them, and that the second
phase replaces rows by what flows into them.
-/

namespace Jit

open IntegerInterval
open List hiding count

/-! ## Rows -/

/-- Every register word lies in its interval. -/
def Covers (row : Row) (regs : Nat → Int64) : Prop := ∀ reg, (regs reg).toInt ∈ row.getD reg top

theorem word_mem_top (word : Int64) : word.toInt ∈ top := by
  have hlo := word.le_toInt
  have hhi := word.toInt_lt
  exact ⟨hlo, by simp only [top]; omega⟩

theorem getD_set (row : Row) (range : Interval) : (row.set reg range).getD other top =
      if reg = other ∧ reg < row.length then range else row.getD other top := by
  by_cases heq : reg = other
  · subst heq
    by_cases hlt : reg < row.length
    · simp [hlt]
    · simp [hlt]
  · simp [heq]

variable {regs : Nat → Int64} {row : Row}

variable {range : Interval}

/-- A row whose entry for the written register covers the new word. -/
theorem Covers.set (h : Covers row regs) (hmem : written.toInt ∈ range) :
    Covers (row.set dst range) (Function.update regs dst written) := by
  intro reg
  rw [getD_set]
  by_cases heq : dst = reg
  · subst heq
    rw [Function.update_self]
    split
    · exact hmem
    · rename_i hout
      have hlen : row.length ≤ dst := by simpa using hout
      rw [getD_eq_getElem?_getD, getElem?_eq_none hlen]
      exact word_mem_top written
  · rw [Function.update_of_ne (Ne.symm heq), if_neg (fun hboth => heq hboth.1)]
    exact h reg

variable {reg : Nat}

/-- A row that is only narrowed around the word a register holds. -/
theorem Covers.narrow (h : Covers row regs) (hmem : (regs reg).toInt ∈ range) :
    Covers (row.set reg range) regs := by
  have hset : Covers (row.set reg range) (Function.update regs reg (regs reg)) := h.set hmem
  rwa [Function.update_eq_self] at hset

variable {instr : JitInstr}

namespace JitFunction

variable {program : JitFunction}

theorem isFloat_of_isInt (h : program.isInt reg = true) : program.isFloat reg = false := by
  simp_all [isInt, isFloat]

/-! ## Transfer -/

variable {before after : Machine}

private theorem mem_readRange (h : Covers row regs) (reg : Nat) :
    (regs reg).toInt ∈ program.readRange row reg := by
  unfold readRange
  split
  · exact h reg
  · exact word_mem_top _

/-- The word an instruction writes lies in the interval of its result. -/
theorem mem_resultRange (h : Covers row regs) (hyields : program.Yields lens regs written instr) :
    written.toInt ∈ program.resultRange row instr := by
  have hread : ∀ reg, (regs reg).toInt ∈ program.readRange row reg := mem_readRange h
  -- the instructions without a case of their own have the full range
  unfold resultRange
  split
  case h_1 _ value =>
    rw [show written = value from hyields]
    exact Interval.mem_constant
  case h_2 _ value =>
    rw [show written = boolWord value from hyields]
    cases value <;> decide
  case h_3 _ src =>
    rw [show written = regs src from hyields]
    exact hread src
  case h_4 dst base =>
    have hlen : written.toInt = (lens base : Int) := hyields
    exact ⟨by simp only [hlen]; omega, (word_mem_top written).2⟩
  case h_5 => exact ⟨hyields, (word_mem_top written).2⟩
  case h_6 _ lhs rhs =>
    split
    · rename_i hint
      rw [hyields (isFloat_of_isInt hint)]
      exact Interval.mem_add (hread lhs) (hread rhs)
    · exact word_mem_top _
  case h_7 _ lhs rhs =>
    split
    · rename_i hint
      rw [hyields (isFloat_of_isInt hint)]
      exact Interval.mem_sub (hread lhs) (hread rhs)
    · exact word_mem_top _
  case h_8 _ lhs rhs =>
    split
    · rename_i hint
      rw [hyields (isFloat_of_isInt hint)]
      exact Interval.mem_mul (hread lhs) (hread rhs)
    · exact word_mem_top _
  case h_9 _ lhs rhs =>
    split
    · exact word_mem_top _
    · obtain ⟨hne, _, hword⟩ := hyields
      rw [hword]
      exact Interval.mem_rem (hread lhs) (hread rhs) hne
  case h_10 => exact word_mem_top _

theorem mem_setRange {word : Int64} (h : word.toInt ∈ range) :
    word.toInt ∈ (if program.isInt reg && fitsI64 range then range else top) := by
  split
  · exact h
  · exact word_mem_top _

/-- An edge that writes nothing out of an instruction that defines something is
the `None` edge of a lookup, whose value is untracked. -/
theorem resultRange_of_unwritten (hget : program.code[ip]? = some instr)
    (hdef : instr.definedRegister = some dst) (hedge : (target, none) ∈ program.edges ip) :
    program.resultRange row instr = top := by
  rw [edges_eq hget] at hedge
  cases instr <;>
    simp_all [JitInstr.controlFlow, JitInstr.definedRegister, targets, resultRange]

/-- One instruction takes a covering row to a covering row. -/
theorem covers_outOf (h : Covers row before.regs) (hstep : program.Step lens before after) :
    Covers (program.outOf row before.ip) after.regs := by
  obtain ⟨instr, written, hget, hedge, _, hwrites⟩ := hstep.executes
  unfold outOf
  simp only [hget]
  cases written with
  | none =>
    rw [show after.regs = before.regs from hwrites]
    cases hdef : instr.definedRegister with
    | none => exact h
    | some dst =>
      have htop : program.resultRange row instr = top := resultRange_of_unwritten hget hdef hedge
      exact h.narrow (mem_setRange (htop ▸ word_mem_top _))
  | some dst =>
    obtain ⟨word, hyields, hafter⟩ := hwrites
    rw [definedRegister_of_edge hget hedge, hafter]
    exact h.set (mem_setRange (mem_resultRange h hyields))

/-! ## Branches -/

private theorem relationOf_holds (h : op.holds a b = outcome) :
    (relationOf op outcome).holds a b = true := by
  cases op <;> cases outcome <;> simp_all [relationOf, JitCompare.holds]

theorem covers_clampRange (h : Covers row regs) (hlo : lo ≤ (regs reg).toInt)
    (hhi : (regs reg).toInt ≤ hi) : Covers (clampRange row reg lo hi) regs :=
  h.narrow (Interval.mem_clamp (h reg) hlo hhi)

private theorem covers_assumeRelation (h : Covers row regs)
    (hholds : relation.holds (regs lhs).toInt (regs rhs).toInt = true) :
    Covers (assumeRelation row lhs rhs relation) regs := by
  obtain ⟨halo, hahi⟩ := h lhs
  obtain ⟨hblo, hbhi⟩ := h rhs
  obtain ⟨hltop, hlbot⟩ := word_mem_top (regs lhs)
  obtain ⟨hrtop, hrbot⟩ := word_mem_top (regs rhs)
  cases relation <;> simp only [JitCompare.holds, decide_eq_true_eq] at hholds <;>
    exact covers_clampRange (covers_clampRange h (by omega) (by omega)) (by omega) (by omega)

/-- The edge a step takes keeps the refined row covering. -/
theorem covers_refineEdge (h : Covers row after.regs) (hstep : program.Step lens before after) :
    Covers (program.refineEdge row before.ip after.ip) after.regs := by
  obtain ⟨instr, written, hget, hedge, htakes, hwrites⟩ := hstep.executes
  unfold refineEdge
  rw [hget]
  split
  · rename_i lhs rhs op expected destination heq
    obtain rfl : instr = .jumpIfIntCompare lhs rhs op expected destination := by simpa using heq
    have hregs : after.regs = before.regs := by
      cases written with
      | none => exact hwrites
      | some dst => exact absurd (definedRegister_of_edge hget hedge) (by simp [JitInstr.definedRegister])
    split
    · have hint : program.isInt lhs = true := by simp_all
      have htaken := htakes (isFloat_of_isInt hint)
      simp only
      split
      · exact h
      · rename_i hone
        refine covers_assumeRelation h (relationOf_holds ?_)
        rw [hregs]
        split at htaken
        · rename_i houtcome
          simp [htaken, houtcome]
        · rename_i houtcome
          have hnot : after.ip ≠ destination := by
            intro hdest
            exact hone (by simp [htaken ▸ hdest, htaken])
          simp only [hnot, decide_false, Bool.false_eq_true, if_false]
          revert houtcome
          cases op.holds (before.regs lhs).toInt (before.regs rhs).toInt <;> cases expected <;> simp
    · exact h
  · exact h

/-! ## Rows of the first phase -/

variable {cells : Nat → Cell}

/-- Inside the full range, and not empty. -/
structure ProperRange (range : Interval) : Prop where
  within : range.Within top
  inhabited : range.Inhabited

theorem properRange_top : ProperRange top := ⟨.refl _, by decide⟩

private theorem properRange_set (h : range.Inhabited) :
    ProperRange (if program.isInt reg && fitsI64 range then range else top) := by
  split
  · rename_i hfits
    simp only [fitsI64, Bool.and_eq_true, decide_eq_true_eq] at hfits
    exact ⟨hfits.2, h⟩
  · exact properRange_top

theorem ProperRange.hull (ha : ProperRange a) (hb : ProperRange b) : ProperRange (a.hull b) :=
  ⟨Interval.hull_within ha.within hb.within,
    .of_mem (Interval.within_hull_left.mem ha.inhabited.lo_mem)⟩

theorem ProperRange.bottom_hull (h : ProperRange a) : bottom.hull a = a := by
  obtain ⟨⟨hlo, hhi⟩, hle⟩ := h
  simp only [top, Interval.Inhabited] at hlo hhi hle
  ext
  · simp only [Interval.hull, bottom]
    omega
  · simp only [Interval.hull, bottom]
    omega

def ProperRow (row : Row) : Prop := ∀ reg, ProperRange (row.getD reg top)

theorem ProperRow.set (h : ProperRow row) (hrange : ProperRange range) :
    ProperRow (row.set reg range) := by
  intro other
  rw [getD_set]
  split
  · exact hrange
  · exact h other

private theorem inhabited_readRange (h : ProperRow row) (reg : Nat) :
    (program.readRange row reg).Inhabited := by
  unfold readRange
  split
  · exact (h reg).inhabited
  · exact properRange_top.inhabited

theorem inhabited_resultRange (h : ProperRow row) : (program.resultRange row instr).Inhabited := by
  have hread : ∀ reg, (program.readRange row reg).Inhabited := inhabited_readRange h
  have htop : top.Inhabited := properRange_top.inhabited
  unfold resultRange
  split
  case h_1 => exact .of_mem Interval.mem_constant
  case h_2 => exact .of_mem Interval.mem_constant
  case h_3 => exact hread _
  case h_4 => decide
  case h_5 => decide
  case h_6 =>
    split
    · exact .of_mem (Interval.mem_add (hread _).lo_mem (hread _).lo_mem)
    · exact htop
  case h_7 =>
    split
    · exact .of_mem (Interval.mem_sub (hread _).lo_mem (hread _).lo_mem)
    · exact htop
  case h_8 =>
    split
    · exact .of_mem (Interval.mem_mul (hread _).lo_mem (hread _).lo_mem)
    · exact htop
  case h_9 =>
    split
    · exact htop
    · rename_i hne
      exact Interval.rem_inhabited (hread _) (hread _) hne
  case h_10 => exact htop

theorem ProperRow.outOf (h : ProperRow row) (ip : Nat) : ProperRow (program.outOf row ip) := by
  unfold JitFunction.outOf
  split
  · exact h
  · split
    · exact h
    · exact h.set (properRange_set (inhabited_resultRange h))

/-- The join of at least one proper row. -/
theorem properRange_mergeAt (hcells : ∀ ip, ProperRow (cells ip).row) {ready : List Nat}
    (hready : ready ≠ []) : ProperRange (program.mergeAt cells ready reg) := by
  obtain ⟨first, rest, rfl⟩ := exists_cons_of_ne_nil hready
  have hout : ∀ source, ProperRange ((program.outOf (cells source).row source).getD reg top) :=
    fun source => (hcells source).outOf source reg
  unfold mergeAt
  rw [foldl_cons, (hout first).bottom_hull]
  exact foldlRecOn _ _ (hout first) fun _ hseed source _ => hseed.hull (hout source)

/-! ## Visits of the first phase -/

variable {nodes : List Nat}

attribute [local simp] List.getD_eq_getElem?_getD

section Widening

/-- The cell a visit records. -/
def widenedCell (program : JitFunction) (cells : Nat → Cell) (ip : Nat) : Cell :=
  ⟨(program.widenRow cells ip).map Prod.fst, true, (program.widenRow cells ip).map Prod.snd⟩

/-- What a visit does: it marks an instruction that stays at the full range, or
passes over one that nothing ready leads to, or records a cell, which may have the
row that was there. -/
inductive Visits (program : JitFunction) (state : Widening) (ip : Nat) : Widening → Prop where
  | marks (keeps : program.keepsTop ip = true) : Visits program state ip
      ⟨Function.update state.cells ip { state.cells ip with initialized := true }, state.changed⟩
  | passes (moves : program.keepsTop ip = false) (none : program.readySources state.cells ip = []) :
      Visits program state ip state
  | records (moves : program.keepsTop ip = false)
      (ready : program.readySources state.cells ip ≠ [])
      (new : (program.widenedCell state.cells ip).row ≠ (state.cells ip).row ∨
        (state.cells ip).initialized = false) : Visits program state ip
      ⟨Function.update state.cells ip (program.widenedCell state.cells ip), true⟩
  | repins (moves : program.keepsTop ip = false)
      (ready : program.readySources state.cells ip ≠ [])
      (same : (program.widenedCell state.cells ip).row = (state.cells ip).row)
      (init : (state.cells ip).initialized = true) : Visits program state ip
      ⟨Function.update state.cells ip (program.widenedCell state.cells ip), state.changed⟩

theorem visits (state : Widening) (ip : Nat) :
    program.Visits state ip (program.widenVisit state ip) := by
  unfold widenVisit
  cases hkeeps : program.keepsTop ip with
  | true => exact .marks hkeeps
  | false =>
    by_cases hready : program.readySources state.cells ip = []
    · simpa [hready] using Visits.passes hkeeps hready
    · simp only [Bool.false_eq_true, if_false, List.isEmpty_iff, hready]
      split
      · rename_i hnew
        exact .records hkeeps hready hnew
      · rename_i hold
        simp only [not_or, ne_eq, not_not, Bool.not_eq_false] at hold
        have hrepins := Visits.repins hkeeps hready hold.1 hold.2
        rwa [widenedCell, hold.1, ← hold.2] at hrepins

/-- A cell of the first phase: a proper row whose pinned registers are at the full range. -/
structure Cell.Good (program : JitFunction) (cell : Cell) : Prop where
  length : cell.row.length = program.nRegs
  proper : ProperRow cell.row
  pinned : ∀ reg, cell.pinned.getD reg false = true → cell.row.getD reg top = top

structure Widening.Good (program : JitFunction) (state : Widening) : Prop where
  cells : ∀ ip, Cell.Good program (state.cells ip)
  kept : ∀ ip, program.keepsTop ip = true →
    (state.cells ip).row = List.replicate program.nRegs top

theorem length_widenedCell (cells : Nat → Cell) (ip : Nat) :
    (program.widenedCell cells ip).row.length = program.nRegs := by
  simp [widenedCell, widenRow]

theorem getD_widenedCell (cells : Nat → Cell) (ip : Nat) {reg : Nat} (hreg : reg < program.nRegs) :
    ((program.widenedCell cells ip).row.getD reg top,
        (program.widenedCell cells ip).pinned.getD reg false) =
      widenRegister (!(cells ip).initialized) ((cells ip).pinned.getD reg false)
        ((cells ip).row.getD reg top)
        (program.mergeAt cells (program.readySources cells ip) reg) := by
  simp [widenedCell, widenRow, getElem?_range hreg]

theorem widenRegister_cases : widenRegister first pinned old merged = (top, true) ∧
        (pinned = true ∨ first = false ∧ ¬ merged.Within old) ∨
      widenRegister first pinned old merged = (merged, false) ∧ pinned = false ∧
        (first = true ∨ merged.Within old) := by
  unfold widenRegister Interval.Within
  cases pinned <;> cases first <;> simp
  omega

/-- A register of a recorded cell is at the full range, or at the join and free. -/
theorem widenedCell_cases : (program.widenedCell cells ip).row.getD reg top = top ∨
      (program.widenedCell cells ip).row.getD reg top =
          program.mergeAt cells (program.readySources cells ip) reg ∧
        (program.widenedCell cells ip).pinned.getD reg false = false := by
  by_cases hreg : reg < program.nRegs
  · have hget := getD_widenedCell cells ip hreg
    rcases widenRegister_cases with ⟨heq, _⟩ | ⟨heq, _⟩
    · exact .inl (Prod.mk.inj (hget.trans heq)).1
    · exact .inr (Prod.mk.inj (hget.trans heq))
  · exact .inl (getD_eq_default _ _ (by rw [length_widenedCell]; omega))

variable {ip : Nat} {state after : Widening}

/-- A recorded cell is good. -/
theorem Cell.Good.widened (hcells : ∀ ip, Cell.Good program (cells ip))
    (hready : program.readySources cells ip ≠ []) :
    Cell.Good program (program.widenedCell cells ip) := by
  refine ⟨length_widenedCell cells ip, fun reg => ?_, fun reg hpinned => ?_⟩
  · rcases widenedCell_cases with htop | ⟨hmerged, _⟩
    · rw [htop]
      exact properRange_top
    · rw [hmerged]
      exact properRange_mergeAt (fun ip => (hcells ip).proper) hready
  · rcases widenedCell_cases with htop | ⟨_, hfree⟩
    · exact htop
    · rw [hfree] at hpinned
      cases hpinned

theorem Widening.Good.visits (h : Widening.Good program state)
    (hvisits : program.Visits state ip after) : Widening.Good program after := by
  have hupdate : ∀ {cell : Cell} {changed : Bool}, Cell.Good program cell →
      (program.keepsTop ip = true → cell.row = replicate program.nRegs top) →
      Widening.Good program ⟨Function.update state.cells ip cell, changed⟩ := fun hcell hkept =>
    ⟨(Function.forall_update_iff _ fun _ => Cell.Good program).mpr ⟨hcell, fun ip _ => h.cells ip⟩,
      (Function.forall_update_iff _ fun ip (cell : Cell) => program.keepsTop ip = true →
        cell.row = replicate program.nRegs top).mpr ⟨hkept, fun ip _ => h.kept ip⟩⟩
  cases hvisits with
  | marks keeps =>
    obtain ⟨hlength, hproper, hpinned⟩ := h.cells ip
    exact hupdate ⟨hlength, hproper, hpinned⟩ (fun _ => h.kept ip keeps)
  | passes => exact h
  | records moves ready | repins moves ready =>
    exact hupdate (.widened h.cells ready) (fun hkept => by simp [moves] at hkept)

theorem getD_replicate_top : (List.replicate count top).getD reg top = top := by
  rw [getD_eq_getElem?_getD, getElem?_getD_replicate_default_eq]

private theorem widenStart_good : Widening.Good program program.widenStart := by
  refine ⟨fun ip => ⟨by simp [widenStart], fun reg => ?_, fun reg _ => ?_⟩, fun _ _ => rfl⟩
  · simp only [widenStart, getD_replicate_top]
    exact properRange_top
  · exact getD_replicate_top

/-! ### The measure -/

/-- What is left of a register: nothing once it is pinned, else its width. -/
def registerRank (pinned : Bool) (range : Interval) : Nat :=
  if pinned then 0 else 1 + (range.hi - range.lo).toNat

/-- What is left of a cell. -/
def Cell.rank (program : JitFunction) (cell : Cell) : Nat :=
  if cell.initialized then
    ∑ reg ∈ Finset.range program.nRegs,
      registerRank (cell.pinned.getD reg false) (cell.row.getD reg top)
  else program.cellFuel

private theorem registerRank_le (h : ProperRange range) : registerRank pinned range ≤ 2 ^ 64 := by
  obtain ⟨⟨hlo, hhi⟩, _⟩ := h
  simp only [top] at hlo hhi
  unfold registerRank
  split <;> omega

/-- A cell is ranked lower than before it was computed. -/
theorem Cell.Good.rank_lt {cell before : Cell} (h : Cell.Good program cell)
    (hinit : cell.initialized = true) (hbefore : before.initialized = false) :
    cell.rank program < before.rank program := by
  have hsum := Finset.sum_le_card_nsmul (Finset.range program.nRegs)
    (fun reg => registerRank (cell.pinned.getD reg false) (cell.row.getD reg top)) (2 ^ 64)
    (fun reg _ => registerRank_le (h.proper reg))
  rw [Finset.card_range, smul_eq_mul] at hsum
  simp only [Cell.rank, hinit, hbefore, if_true, Bool.false_eq_true, if_false, cellFuel]
  omega

/-- A visit of an initialised cell lowers what is left of each register, strictly
where the interval changes. -/
theorem registerRank_widen {pinned : Bool} {old merged : Interval} (hold : ProperRange old)
    (hmerged : ProperRange merged) (hpinned : pinned = true → old = top) {next : Interval × Bool}
    (hnext : next = widenRegister false pinned old merged) :
    registerRank next.2 next.1 ≤ registerRank pinned old ∧
      (next.1 ≠ old → registerRank next.2 next.1 < registerRank pinned old) := by
  rcases widenRegister_cases with ⟨heq, hcase⟩ | ⟨heq, hfree, hcase⟩
  · rw [hnext, heq]
    refine ⟨by simp [registerRank], fun hne => ?_⟩
    cases pinned with
    | true => exact absurd (hpinned rfl).symm hne
    | false =>
      simp only [registerRank, if_true, Bool.false_eq_true, if_false]
      omega
  · rw [hnext, heq]
    subst hfree
    obtain ⟨hlo, hhi⟩ := hcase.resolve_left (by simp)
    have hm := hmerged.inhabited
    have ho := hold.inhabited
    simp only [Interval.Inhabited] at hm ho
    simp only [registerRank, Bool.false_eq_true, if_false]
    refine ⟨by omega, fun hne => ?_⟩
    have hends : ¬ (merged.lo = old.lo ∧ merged.hi = old.hi) :=
      fun hboth => hne (Interval.ext hboth.1 hboth.2)
    omega

/-- Two rows of the same length differ at some register. -/
theorem exists_getD_ne {row row' : Row} (hlen : row.length = row'.length) (hne : row ≠ row') :
    ∃ reg < row.length, row.getD reg top ≠ row'.getD reg top := by
  by_contra hall
  refine hne (ext_getElem hlen fun reg h h' => ?_)
  by_contra hdiff
  exact hall ⟨reg, h, by simpa [h, h'] using hdiff⟩

theorem rank_widenedCell (h : Widening.Good program state)
    (hready : program.readySources state.cells ip ≠ []) (hinit : (state.cells ip).initialized = true) :
    (program.widenedCell state.cells ip).rank program ≤ (state.cells ip).rank program ∧
      ((program.widenedCell state.cells ip).row ≠ (state.cells ip).row →
        (program.widenedCell state.cells ip).rank program < (state.cells ip).rank program) := by
  have hnext := fun reg hreg => @getD_widenedCell program state.cells ip reg hreg
  rw [hinit] at hnext
  have hregister := fun reg hreg => registerRank_widen ((h.cells ip).proper reg)
    (properRange_mergeAt (fun ip => (h.cells ip).proper) hready) ((h.cells ip).pinned reg)
    (hnext reg hreg)
  have hterm := fun reg hreg => (hregister reg (Finset.mem_range.mp hreg)).1
  have hmarked : (program.widenedCell state.cells ip).initialized = true := rfl
  simp only [Cell.rank, hinit, hmarked, if_true]
  refine ⟨Finset.sum_le_sum hterm, fun hne => ?_⟩
  have hlen := @length_widenedCell program state.cells ip
  obtain ⟨reg, hreg, hdiff⟩ := exists_getD_ne (hlen.trans (h.cells ip).length.symm) hne
  rw [hlen] at hreg
  exact Finset.sum_lt_sum hterm ⟨reg, Finset.mem_range.mpr hreg, (hregister reg hreg).2 hdiff⟩

/-- A visit raises the rank of no cell, and one that reports a change lowers that of its cell. -/
theorem rank_visits (h : Widening.Good program state) (hvisits : program.Visits state ip after) :
    (∀ other, (after.cells other).rank program ≤ (state.cells other).rank program) ∧
    (after.changed = true → state.changed = false →
      (after.cells ip).rank program < (state.cells ip).rank program) := by
  have hupdate : ∀ {cell : Cell}, cell.rank program ≤ (state.cells ip).rank program → ∀ other,
      (Function.update state.cells ip cell other).rank program ≤
        (state.cells other).rank program := fun hle =>
    (Function.forall_update_iff _ fun other cell =>
      Cell.rank program cell ≤ (state.cells other).rank program).mpr ⟨hle, fun _ _ => le_refl _⟩
  cases hvisits with
  | marks =>
    refine ⟨hupdate ?_, fun hchanged hsame => by simp [hsame] at hchanged⟩
    cases hinit : (state.cells ip).initialized with
    | true => simp [Cell.rank, hinit]
    | false =>
      obtain ⟨hlength, hproper, hpinned⟩ := h.cells ip
      have hgood : Cell.Good program { state.cells ip with initialized := true } :=
        ⟨hlength, hproper, hpinned⟩
      exact (hgood.rank_lt rfl hinit).le
  | passes => exact ⟨fun _ => le_refl _, fun hchanged hsame => by simp [hsame] at hchanged⟩
  | records _ ready new =>
    have hlt : (program.widenedCell state.cells ip).rank program <
        (state.cells ip).rank program := by
      cases hinit : (state.cells ip).initialized with
      | true => exact (rank_widenedCell h ready hinit).2 (new.resolve_right (by simp [hinit]))
      | false => exact (Cell.Good.widened h.cells ready).rank_lt rfl hinit
    exact ⟨hupdate hlt.le, fun _ _ => by simpa using hlt⟩
  | repins _ ready _ init =>
    exact ⟨hupdate (rank_widenedCell h ready init).1,
      fun hchanged hsame => by simp [hsame] at hchanged⟩

/-- What is left of the whole table. -/
def tableRank (program : JitFunction) (cells : Nat → Cell) : Nat :=
  ∑ ip ∈ Finset.range program.code.length, (cells ip).rank program

theorem tableRank_visits (hnodes : ∀ ip ∈ nodes, ip < program.code.length)
    (h : Widening.Good program state) :
    Widening.Good program (nodes.foldl program.widenVisit state) ∧
      program.tableRank (nodes.foldl program.widenVisit state).cells ≤
        program.tableRank state.cells ∧
      ((nodes.foldl program.widenVisit state).changed = true → state.changed = false →
        program.tableRank (nodes.foldl program.widenVisit state).cells <
          program.tableRank state.cells) := by
  induction nodes generalizing state with
  | nil => exact ⟨h, le_refl _, fun htrue hfalse => by simp_all⟩
  | cons ip nodes ih =>
    obtain ⟨hip, hrest⟩ := forall_mem_cons.mp hnodes
    obtain ⟨hgood, hle, hlt⟩ := ih hrest (h.visits (visits state ip))
    obtain ⟨hcells, hcell⟩ := rank_visits h (visits state ip)
    have hvisit : program.tableRank (program.widenVisit state ip).cells ≤
        program.tableRank state.cells := Finset.sum_le_sum fun other _ => hcells other
    refine ⟨hgood, hle.trans hvisit, fun hchanged hsame => ?_⟩
    -- the change is reported by this visit or by a later one
    cases hfirst : (program.widenVisit state ip).changed with
    | true =>
      refine hle.trans_lt (Finset.sum_lt_sum (fun other _ => hcells other)
        ⟨ip, Finset.mem_range.mpr hip, hcell hfirst hsame⟩)
    | false => exact (hlt hchanged hfirst).trans_le hvisit

/-- With more fuel than the measure, the loop ends with a pass that changes nothing. -/
theorem widenLoop_quiet (h : Widening.Good program state)
    (hfuel : program.tableRank state.cells < fuel) : ∃ before, Widening.Good program before ∧
      program.widenLoop fuel state = program.widenPass before ∧
      (program.widenPass before).changed = false := by
  induction fuel generalizing state with
  | zero => omega
  | succ fuel ih =>
    have hstart : Widening.Good program { state with changed := false } := ⟨h.cells, h.kept⟩
    have hnodes : ∀ ip ∈ range program.code.length, ip < program.code.length := by simp
    obtain ⟨hgood, _, hlt⟩ := tableRank_visits hnodes hstart
    rw [widenLoop]
    split
    · rename_i hchanged
      have hless : program.tableRank (program.widenPass state).cells <
          program.tableRank state.cells := hlt hchanged rfl
      exact ih hgood (by omega)
    · rename_i hchanged
      exact ⟨state, h, rfl, by simpa using hchanged⟩

private theorem tableRank_start :
    program.tableRank program.widenStart.cells = program.code.length * program.cellFuel := by
  simp [tableRank, Cell.rank, widenStart]

/-! ### Quiet passes -/

/-- The rows stay, and only instructions at the full range are newly marked. -/
structure Grown (program : JitFunction) (before after : Widening) : Prop where
  rows : ∀ ip, (after.cells ip).row = (before.cells ip).row
  marks : ∀ ip, program.keepsTop ip = false →
    (after.cells ip).initialized = (before.cells ip).initialized
  keeps : ∀ ip, (before.cells ip).initialized = true → (after.cells ip).initialized = true

theorem Grown.refl (state : Widening) : Grown program state state :=
  ⟨fun _ => rfl, fun _ _ => rfl, fun _ h => h⟩

theorem Grown.trans {a b c : Widening} (hab : Grown program a b) (hbc : Grown program b c) :
    Grown program a c :=
  ⟨fun ip => (hbc.rows ip).trans (hab.rows ip),
    fun ip h => (hbc.marks ip h).trans (hab.marks ip h), fun ip h => hbc.keeps ip (hab.keeps ip h)⟩

/-- A visit that reports no change found the row of its instruction as it would compute it. -/
theorem visits_quiet (hvisits : program.Visits state ip after) (h : after.changed = false) :
    state.changed = false ∧ Grown program state after ∧
      (program.keepsTop ip = true → (after.cells ip).initialized = true) ∧
      (program.keepsTop ip = false → program.readySources state.cells ip ≠ [] →
        (state.cells ip).initialized = true ∧
          (program.widenedCell state.cells ip).row = (state.cells ip).row) := by
  have hupdate : ∀ {cell : Cell} {changed : Bool}, cell.row = (state.cells ip).row →
      (program.keepsTop ip = false → cell.initialized = (state.cells ip).initialized) →
      cell.initialized = true → Grown program state ⟨Function.update state.cells ip cell, changed⟩ := by
    intro cell changed hrow hmark hinit
    refine ⟨fun other => ?_, fun other hother => ?_, fun other hother => ?_⟩
    all_goals
      by_cases heq : other = ip
      · simp_all
      · simp_all
  cases hvisits with
  | marks keeps =>
    exact ⟨h, hupdate rfl (fun moves => by simp [keeps] at moves) rfl, fun _ => by simp,
      fun moves => by simp [keeps] at moves⟩
  | passes moves none =>
    exact ⟨h, .refl state, fun keeps => by simp [moves] at keeps, fun _ ready => absurd none ready⟩
  | records => simp at h
  | repins moves _ same init =>
    exact ⟨h, hupdate same (fun _ => init.symm) rfl, fun keeps => by simp [moves] at keeps,
      fun _ _ => ⟨init, same⟩⟩

/-- In a pass that reports no change, every visit is quiet. -/
theorem exists_quiet_visit (h : (nodes.foldl program.widenVisit state).changed = false) :
    state.changed = false ∧ Grown program state (nodes.foldl program.widenVisit state) ∧
      ∀ ip ∈ nodes, ∃ mid, (program.widenVisit mid ip).changed = false ∧ Grown program state mid ∧
        Grown program (program.widenVisit mid ip) (nodes.foldl program.widenVisit state) := by
  induction nodes generalizing state with
  | nil => exact ⟨h, .refl state, by simp⟩
  | cons first nodes ih =>
    obtain ⟨hfirst, hgrown, hall⟩ := ih h
    obtain ⟨hstate, hvisit, _⟩ := visits_quiet (visits state first) hfirst
    refine ⟨hstate, hvisit.trans hgrown, forall_mem_cons.mpr ⟨?_, fun ip hip => ?_⟩⟩
    · exact ⟨state, hfirst, .refl state, hgrown⟩
    · obtain ⟨mid, hquiet, hmid, hfinal⟩ := hall ip hip
      exact ⟨mid, hquiet, hvisit.trans hmid, hfinal⟩

variable {source : Nat}

theorem mem_sources : source ∈ program.sources ip ↔
    ip ∈ program.reachableJitInstrs ∧ source ∈ program.reachableJitInstrs ∧
      ip ∈ program.successors source := by
  unfold sources
  split
  · rename_i hip
    simp [hip, and_comm]
  · rename_i hip
    simp [hip]

/-- A reachable instruction other than the first takes part in the analysis. -/
theorem keepsTop_of_reachable (hip : ip ∈ program.reachableJitInstrs) (hne : ip ≠ 0) :
    program.keepsTop ip = false := by
  obtain ⟨hlt, hreach⟩ := mem_reachableJitInstrs.mp hip
  obtain ⟨source, hsource, hstep⟩ := (Relation.ReflTransGen.cases_tail hreach).resolve_left hne
  have hmem : source ∈ program.sources ip :=
    mem_sources.mpr ⟨hip, mem_reachableJitInstrs.mpr ⟨hlt, hsource⟩, hstep⟩
  simp only [keepsTop, hne, hip, decide_false, not_true_eq_false, Bool.false_or]
  cases hsources : program.sources ip with
  | nil => simp [hsources] at hmem
  | cons => rfl

/-- What the first phase establishes: the rows of the reachable code contain what
flows into them. -/
structure Inductive (program : JitFunction) (state : Widening) : Prop where
  good : Widening.Good program state
  marked : ∀ ip ∈ program.reachableJitInstrs, (state.cells ip).initialized = true
  flows : ∀ {ip source}, program.keepsTop ip = false → source ∈ program.sources ip →
    ∀ reg, ((program.outOf (state.cells source).row source).getD reg top).Within
      ((state.cells ip).row.getD reg top)

/-- A row that a quiet visit would compute again contains what flows into it. -/
theorem within_of_widenedCell (hproper : ∀ ip, ProperRow (cells ip).row)
    (hrow : (program.widenedCell cells ip).row = (cells ip).row)
    (hready : source ∈ program.readySources cells ip) :
    ((program.outOf (cells source).row source).getD reg top).Within ((cells ip).row.getD reg top) := by
  rw [← hrow]
  rcases widenedCell_cases with htop | ⟨hmerged, _⟩
  · rw [htop]
    exact ((hproper source).outOf source reg).within
  · rw [hmerged]
    exact (Interval.within_foldl_hull _ _ _).2 source hready

section Quiet

variable {before : Widening}

theorem marked_zero (hquiet : (program.widenPass before).changed = false)
    (hlt : 0 < program.code.length) : ((program.widenPass before).cells 0).initialized = true := by
  obtain ⟨_, _, hall⟩ := exists_quiet_visit hquiet
  obtain ⟨mid, hmid, _, hfinal⟩ := hall 0 (mem_range.mpr hlt)
  exact hfinal.keeps 0 ((visits_quiet (visits mid _) hmid).2.2.1 (by simp [keepsTop]))

/-- The visit of a reachable instruction in a quiet pass. Instruction 0 is visited
first, so its mark is there already. -/
theorem quiet_visit (hquiet : (program.widenPass before).changed = false)
    (hip : ip ∈ program.reachableJitInstrs) (hne : ip ≠ 0) :
    ∃ mid, (program.widenVisit mid ip).changed = false ∧ (mid.cells 0).initialized = true ∧
      Grown program mid (program.widenPass before) := by
  have hlt := reachable_lt hip
  obtain ⟨count, hcount⟩ := Nat.exists_eq_succ_of_ne_zero (Nat.ne_of_gt (Nat.zero_lt_of_lt hlt))
  have hrange : range program.code.length = 0 :: (range count).map Nat.succ := by
    rw [hcount, range_succ_eq_map]
  have hmem : ip ∈ (range count).map Nat.succ := by
    have hall : ip ∈ range program.code.length := mem_range.mpr hlt
    rw [hrange] at hall
    exact (mem_cons.mp hall).resolve_left hne
  unfold widenPass at hquiet ⊢
  rw [hrange, foldl_cons] at hquiet ⊢
  obtain ⟨hzero, _, hall⟩ := exists_quiet_visit hquiet
  obtain ⟨mid, hmid, hgrown, hfinal⟩ := hall ip hmem
  refine ⟨mid, hmid, hgrown.keeps 0 ((visits_quiet (visits _ 0) hzero).2.2.1 (by simp [keepsTop])), ?_⟩
  exact (visits_quiet (visits mid _) hmid).2.1.trans hfinal

/-- A predecessor that is marked at the end was ready at the visit. -/
theorem mem_ready (hzero : (mid.cells 0).initialized = true)
    (hgrown : Grown program mid (program.widenPass before)) (hsource : source ∈ program.sources ip)
    (hmarked : ((program.widenPass before).cells source).initialized = true) :
    source ∈ program.readySources mid.cells ip := by
  refine mem_filter.mpr ⟨hsource, ?_⟩
  by_cases heq : source = 0
  · rwa [heq]
  · rwa [← hgrown.marks source (keepsTop_of_reachable (mem_sources.mp hsource).2.1 heq)]

/-- Every reachable instruction is marked: the first one without a mark would have
been computed, and reported, by the pass. -/
theorem marked_of_quiet (hquiet : (program.widenPass before).changed = false)
    (hip : ip ∈ program.reachableJitInstrs) :
    ((program.widenPass before).cells ip).initialized = true := by
  obtain ⟨hlt, hreach⟩ := mem_reachableJitInstrs.mp hip
  clear hip
  induction hreach with
  | refl => exact marked_zero hquiet hlt
  | @tail source ip hsource hstep ih =>
    by_cases hzero : ip = 0
    · exact hzero ▸ marked_zero hquiet hlt
    · have hreachable := mem_reachableJitInstrs.mpr ⟨hlt, hsource⟩
      have hip := reachable_successor hreachable hstep
      obtain ⟨mid, hmid, hmidzero, hgrown⟩ := quiet_visit hquiet hip hzero
      have hmem := mem_ready hmidzero hgrown (mem_sources.mpr ⟨hip, hreachable, hstep⟩) ih
      obtain ⟨hinit, _⟩ := (visits_quiet (visits mid _) hmid).2.2.2 (keepsTop_of_reachable hip hzero)
        (ne_nil_of_mem hmem)
      exact hgrown.keeps ip hinit

/-- A pass that reports no change has reached inductive rows. -/
theorem inductive_of_quiet (hbefore : Widening.Good program before)
    (hquiet : (program.widenPass before).changed = false) :
    Inductive program (program.widenPass before) := by
  have hstart : Widening.Good program { before with changed := false } :=
    ⟨hbefore.cells, hbefore.kept⟩
  have hnodes : ∀ ip ∈ range program.code.length, ip < program.code.length := by simp
  have hgood : Widening.Good program (program.widenPass before) :=
    (tableRank_visits hnodes hstart).1
  refine ⟨hgood, fun ip hip => marked_of_quiet hquiet hip, fun {ip source} hkeeps hsource reg => ?_⟩
  obtain ⟨hip, hreachable, _⟩ := mem_sources.mp hsource
  have hne : ip ≠ 0 := by
    rintro rfl
    simp [keepsTop] at hkeeps
  obtain ⟨mid, hmid, hzero, hgrown⟩ := quiet_visit hquiet hip hne
  have hmem := mem_ready hzero hgrown hsource (marked_of_quiet hquiet hreachable)
  obtain ⟨_, hrow⟩ := (visits_quiet (visits mid _) hmid).2.2.2 hkeeps (ne_nil_of_mem hmem)
  have hproper : ∀ ip, ProperRow (mid.cells ip).row := fun ip =>
    hgrown.rows ip ▸ (hgood.cells ip).proper
  rw [hgrown.rows source, hgrown.rows ip]
  exact within_of_widenedCell hproper hrow hmem

end Quiet

/-- The first phase ends with a pass that changes nothing. -/
theorem exists_last_pass :
    ∃ before, Widening.Good program before ∧ program.widened = program.widenPass before ∧
      (program.widenPass before).changed = false := by
  exact widenLoop_quiet widenStart_good (tableRank_start.trans_lt (Nat.lt_add_one _))

/-- The rows the first phase ends with are inductive. -/
theorem widened_inductive : Inductive program program.widened := by
  obtain ⟨before, hgood, heq, hquiet⟩ := exists_last_pass
  rw [heq]
  exact inductive_of_quiet hgood hquiet

end Widening

/-! ## Executions -/

section Executions

variable {lens : Nat → Nat} {entry : Nat → Int64}

private theorem covers_replicate : Covers (List.replicate count top) regs := by
  intro reg
  rw [getD_replicate_top]
  exact word_mem_top _

theorem length_pos_of_step (h : program.Step lens before after) : 0 < program.code.length := by
  obtain ⟨_, _, hget, _⟩ := h.executes
  exact Nat.zero_lt_of_lt (List.getElem?_eq_some_iff.mp hget).1

/-- The predecessor a step came from is one of the analysis. -/
theorem mem_sources_of_step (hreach : program.Reaches lens entry before)
    (hstep : program.Step lens before after) : before.ip ∈ program.sources after.ip := by
  have hbefore := hreach.reachable (length_pos_of_step hstep)
  obtain ⟨_, _, _, hedge, _⟩ := hstep.executes
  have htarget := mem_successors_of_edge hedge
  exact mem_sources.mpr ⟨reachable_successor hbefore htarget, hbefore, htarget⟩

variable {state : Machine} {rows : Nat → Row}

/-- Inductive rows cover every execution. -/
theorem Inductive.covers (hfinal : Inductive program final) (h : program.Reaches lens entry state) :
    Covers (final.cells state.ip).row state.regs := by
  obtain ⟨hgood, _, hflows⟩ := hfinal
  have hzero : ∀ regs, Covers (final.cells 0).row regs := by
    intro regs
    rw [hgood.kept 0 (by simp [keepsTop])]
    exact covers_replicate
  induction h with
  | refl => exact hzero entry
  | @tail before after hreach hstep ih =>
    by_cases heq : after.ip = 0
    · rw [heq]
      exact hzero after.regs
    · have hsource := mem_sources_of_step hreach hstep
      have hkeeps := keepsTop_of_reachable (mem_sources.mp hsource).1 heq
      intro reg
      exact (hflows hkeeps hsource reg).mem (covers_outOf ih hstep reg)

/-- Rows that cover every execution from instruction 0. -/
def RowsCover (program : JitFunction) (lens : Nat → Nat) (entry : Nat → Int64)
    (rows : Nat → Row) : Prop :=
  ∀ state, program.Reaches lens entry state → Covers (rows state.ip) state.regs

/-- Replacing the row of an instruction by what flows in from its only predecessor. -/
theorem RowsCover.visit (h : RowsCover program lens entry rows) (ip : Nat) :
    RowsCover program lens entry (program.refineVisit (rows, changed) ip).1 := by
  unfold refineVisit
  split
  · exact h
  · rename_i hguard
    simp only [Bool.or_eq_true, not_or, Bool.not_eq_true] at hguard
    obtain ⟨hkeeps, hsingle⟩ := hguard
    cases hready : program.readySources program.widened.cells ip with
    | nil => exact h
    | cons source others =>
      simp only
      split
      · exact h
      · intro state hreach
        by_cases heq : state.ip = ip
        · subst heq
          show Covers (Function.update rows state.ip _ state.ip) state.regs
          rw [Function.update_self]
          rcases Relation.ReflTransGen.cases_tail hreach with hentry | ⟨before, hbefore, hstep⟩
          · simp [keepsTop, hentry] at hkeeps
          -- all predecessors are ready, and there is only one
          · have hsource := mem_sources_of_step hbefore hstep
            have hmem : before.ip ∈ program.readySources program.widened.cells state.ip :=
              mem_filter.mpr ⟨hsource, (widened_inductive).marked _ (mem_sources.mp hsource).2.1⟩
            have hothers : others = [] := by
              simp only [multiPred, hready, length_cons, decide_eq_false_iff_not] at hsingle
              exact eq_nil_of_length_eq_zero (by omega)
            rw [hready, hothers, mem_singleton] at hmem
            rw [← hmem]
            exact covers_refineEdge (covers_outOf (h before hbefore) hstep) hstep
        · show Covers (Function.update rows ip _ state.ip) state.regs
          rw [Function.update_of_ne heq]
          exact h state hreach

theorem RowsCover.visits (h : RowsCover program lens entry rows) :
    RowsCover program lens entry (nodes.foldl program.refineVisit (rows, changed)).1 :=
  foldlRecOn (motive := fun (state : (Nat → Row) × Bool) =>
    RowsCover program lens entry state.1) nodes _ h fun _ h ip _ => h.visit ip

theorem RowsCover.sweeps (h : RowsCover program lens entry rows) (sweeps : Nat) :
    RowsCover program lens entry (program.refineSweeps sweeps rows) := by
  induction sweeps generalizing rows with
  | zero => exact h
  | succ sweeps ih =>
    simp only [refineSweeps]
    split
    · exact ih h.visits
    · exact h.visits

/-- The rows after both phases cover every execution. -/
theorem covers_refined (h : program.Reaches lens entry state) :
    Covers (program.refined state.ip) state.regs :=
  RowsCover.sweeps (fun _ hreach => (widened_inductive).covers hreach) _ state h

theorem covers_intervalAnalysis (h : program.Reaches lens entry state) :
    Covers (program.intervalAnalysis.getD state.ip []) state.regs := by
  unfold intervalAnalysis
  by_cases hlt : state.ip < program.code.length
  · simpa [getElem?_range hlt] using covers_refined h
  · rw [getD_eq_getElem?_getD, getElem?_eq_none (by simpa using hlt)]
    intro reg
    exact word_mem_top _

end Executions

end JitFunction

/-! ## What the analysis is used for -/

/-- The exact result of an arithmetic instruction. -/
def exactResult (regs : Nat → Int64) : JitInstr → Option Int
  | .add _ lhs rhs => some ((regs lhs).toInt + (regs rhs).toInt)
  | .sub _ lhs rhs => some ((regs lhs).toInt - (regs rhs).toInt)
  | .mul _ lhs rhs => some ((regs lhs).toInt * (regs rhs).toInt)
  | _ => none

/-- An approved operation does not overflow from any registers its row covers. -/
theorem exactResult_mem_top (h : Covers row regs) (happroved : arithCannotOverflow row instr = true)
    (hresult : exactResult regs instr = some result) : result ∈ top := by
  have hfits : ∀ {range : Interval}, fitsI64 range = true → result ∈ range → result ∈ top := by
    intro range hrange hmem
    simp only [fitsI64, Bool.and_eq_true, decide_eq_true_eq] at hrange
    exact Interval.Within.mem hrange hmem
  cases instr <;> simp only [exactResult, Option.some.injEq, reduceCtorEq] at hresult <;>
    subst hresult
  case add dst lhs rhs => exact hfits happroved (Interval.mem_add (h lhs) (h rhs))
  case sub dst lhs rhs => exact hfits happroved (Interval.mem_sub (h lhs) (h rhs))
  case mul dst lhs rhs => exact hfits happroved (Interval.mem_mul (h lhs) (h rhs))

/-- The analysis of an accepted function terminates with a pass that changes
nothing; in every execution each `Int` register lies in its interval, and an
operation that is lowered without its overflow check has a result that fits. -/
theorem intervalAnalysis_sound (program : JitFunction) (osr : Bool) (limits : JitLimits)
    (facts : ValidationFacts) (_h : validateWithLimits program osr limits = .ok facts) :
    (∃ before, program.widened = program.widenPass before ∧
      (program.widenPass before).changed = false) ∧
    ∀ lens entry state, program.Reaches lens entry state →
      (∀ reg, program.isInt reg = true →
        (state.regs reg).toInt ∈ (program.intervalAnalysis.getD state.ip []).getD reg top) ∧
      ∀ instr, program.code[state.ip]? = some instr →
        arithCannotOverflow (program.intervalAnalysis.getD state.ip []) instr = true →
        ∀ result, exactResult state.regs instr = some result →
          -2 ^ 63 ≤ result ∧ result ≤ 2 ^ 63 - 1 := by
  obtain ⟨before, _, heq, hquiet⟩ := JitFunction.exists_last_pass
  refine ⟨⟨before, heq, hquiet⟩, fun lens entry state hreach => ?_⟩
  have hcovers := JitFunction.covers_intervalAnalysis hreach
  exact ⟨fun reg _ => hcovers reg, fun instr _ happroved result hresult =>
    exactResult_mem_top hcovers happroved hresult⟩

/-- A loop over the elements of a flat list, with a counter below the length. -/
def sumElements : JitFunction where
  nParams := 1
  nRegs := 5
  regTypes := [.flatInt, .int, .int, .int, .int]
  zeroInitRegs := []
  code := [.loadInt 1 0, .listLenDirect 2 0, .loadInt 3 1, .jumpIfIntCompare 1 2 .lt false 7,
    .listGetIntDirect 4 0 1, .add 1 1 3, .jump 3, .return 1]
  instructionOrigins := []
  sourceInstructionCount := 0
  memoScopes := []
  coldBlocks := []
  resumeLiveRegs := [[], [], [], [], [], [], [], []]

/-- The counter is below the length, so that its increment needs no overflow check. -/
theorem sumElements_ranges :
    (∃ facts, validateWithLimits sumElements false .default = .ok facts) ∧
      arithCannotOverflow (sumElements.intervalAnalysis.getD 5 []) (.add 1 1 3) = true ∧
      ∀ lens entry state, sumElements.Reaches lens entry state → state.ip = 5 →
        ∀ result, exactResult state.regs (.add 1 1 3) = some result → result ≤ 2 ^ 63 - 1 := by
  obtain ⟨facts, hvalid⟩ : ∃ facts, validateWithLimits sumElements false .default = .ok facts :=
    ⟨_, rfl⟩
  have happroved :
      arithCannotOverflow (sumElements.intervalAnalysis.getD 5 []) (.add 1 1 3) = true := by
    decide +kernel
  obtain ⟨_, hsound⟩ := intervalAnalysis_sound sumElements false .default facts hvalid
  refine ⟨⟨facts, hvalid⟩, happroved, fun lens entry state hreach hip result hresult => ?_⟩
  obtain ⟨_, hfits⟩ := hsound lens entry state hreach
  rw [hip] at hfits
  exact (hfits (.add 1 1 3) rfl happroved result hresult).2

end Jit
