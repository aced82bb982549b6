import RSScript.Jit.Steps

/-!
# Which bails report the exact count

Both models charge in advance along stretches of the code that a path leaves at
the end and enters at the start, so that the running count is known at every
instruction (`segmentRun_count`, `blockRun_eq`). The resume count of the segment
model is followed along the path (`Reports`): outside inlined code it is exact,
and inside it stays what was published before, without the instruction that ended
the last segment if that one can bail. The block model subtracts the cost since the
anchor, and nothing else (`blockReported_eq`).
-/

namespace Jit

open Precharge List Nat

namespace JitFunction

variable {program : JitFunction} {meter : Meter} {entry : Nat}

/-! ## Leaders and segments -/

/-- Control leaves a block at its end and enters one at its leader. -/
theorem leaders_stretches :
    Stretches program.isLeader program.code.length (program.Goes meter) := by
  refine ⟨fun {ip extra target} h => ⟨lt_of_mem_successors h.1, successors_lt h.1⟩,
    fun {ip extra target} h => ?_⟩
  have htarget : target ∈ program.successors ip := h.1
  cases hget : program.code[ip]? with
  | none => simp [successors, hget] at htarget
  | some instr =>
    rw [successors_eq hget] at htarget
    have htarget := (mem_filter.mp htarget).1
    have hmem : instr ∈ program.code := mem_of_getElem? hget
    have hnamed : target ∈ jumpTargets instr.controlFlow → program.isLeader target = true := by
      intro hnamed
      have hany : program.code.any (target ∈ jumpTargets ·.controlFlow) = true :=
        any_eq_true.mpr ⟨instr, hmem, by simpa using hnamed⟩
      simp [isLeader, hany]
    have hafter : instr.controlFlow ≠ .fallthrough → program.isLeader (ip + 1) = true := by
      intro hflow
      simp [isLeader, hget, hflow]
    cases hflow : instr.controlFlow with
    | «fallthrough» | terminal => simp_all [targets]
    | jump _ | split _ _ =>
      exact .inr ⟨hnamed (by simpa [targets, hflow, jumpTargets] using htarget),
        fun _ => hafter (by simp [hflow])⟩
    | conditional destination =>
      simp only [hflow, targets, mem_cons, not_mem_nil, or_false] at htarget
      rcases htarget with rfl | rfl
      · exact .inl rfl
      · exact .inr ⟨hnamed (by simp [hflow, jumpTargets]), fun _ => hafter (by simp [hflow])⟩

variable {ip : Nat}

theorem startsSegment_of_opens (h : program.opensSegment ip = true) :
    program.startsSegment ip = true := by
  cases ip with
  | zero => exact h
  | succ ip => simp [startsSegment, segmentScan, h]

attribute [local simp] reportedVisits publishedVisits opensSegment

theorem startsSegment_of_leader (h : program.isLeader ip = true) :
    program.startsSegment ip = true :=
  startsSegment_of_opens (by simp [h])

/-- After an instruction that can bail a segment starts. -/
theorem startsSegment_of_bailing (h : program.batchSafe ip = false) :
    program.startsSegment (ip + 1) = true :=
  startsSegment_of_opens (by simp [h])

/-- So it does where inlined code begins or ends. -/
theorem startsSegment_of_boundary (h : program.inlined ip ≠ program.inlined (ip + 1)) :
    program.startsSegment (ip + 1) = true := by
  have hchanges : program.originChanges (ip + 1) = true := by
    simp only [originChanges, Nat.add_sub_cancel, Bool.or_eq_true, bne_iff_ne]
    exact .inl (Ne.symm h)
  exact startsSegment_of_opens (by simp [hchanges])

theorem segments_stretches :
    Stretches program.startsSegment program.code.length (program.Goes meter) := by
  have hleaders : Stretches program.isLeader program.code.length (program.Goes meter) :=
    leaders_stretches
  refine ⟨hleaders.lt, fun h => ?_⟩
  exact (hleaders.next h).imp_right fun ⟨htarget, hafter⟩ =>
    ⟨startsSegment_of_leader htarget, fun hlt => startsSegment_of_leader (hafter hlt)⟩

/-! ## The segment model -/

section Segments

variable {visits : List Visit} {ip : Nat}

@[simp] theorem segmentPoll_count :
    (program.segmentPoll stepArmed state ip).count = state.count := by
  unfold segmentPoll
  split <;> rfl

@[simp] theorem segmentCharge_count : (program.segmentCharge stepArmed meter state ip).count =
      state.count + program.segmentEntry meter ip := by
  simp only [segmentCharge]
  split <;> simp

/-- Publishing does not touch the running count. -/
theorem segmentRun_count (visits : List Visit) :
    (program.segmentRun stepArmed meter entry visits).count =
      arrival program.startsSegment program.code.length (program.cost meter) entry visits := by
  induction visits with
  | nil => rfl
  | cons visit visits ih =>
    simp only [segmentRun, segmentCharge_count, arrival, ih]
    rfl

/-- Where nothing is published, a bail reports what it would have reported before. -/
theorem segmentCharge_resume_of_not (meter : Meter) (h : program.publishes stepArmed ip = false) :
    (program.segmentPoll stepArmed state ip).resume = state.resume ∧
      (program.segmentCharge stepArmed meter state ip).resume = state.resume := by
  simp [segmentPoll, segmentCharge, h]

/-- The guard of a segment is part of what is left of it. -/
theorem tailGuard_le (hip : ip < program.code.length) : program.tailGuard meter ip ≤
      rest program.startsSegment program.code.length (program.cost meter) ip := by
  obtain ⟨hlt, _⟩ := @lt_stretchEnd program.startsSegment program.code.length ip hip
  obtain ⟨last, hlast⟩ : ∃ last,
      stretchEnd program.startsSegment program.code.length ip = last + 1 :=
    ⟨_, (succ_pred_eq_of_pos (zero_lt_of_lt hlt)).symm⟩
  have hguard : program.tailGuard meter ip ≤ program.cost meter last := by
    simp only [tailGuard, segmentEnd, hlast, Nat.add_sub_cancel]
    by_cases hsafe : program.batchSafe last = true
    · simp [hsafe]
    · simp [hsafe]
  have hspan := @span_append (program.cost meter) ip last (last + 1) (by omega) (le_succ last)
  rw [span_cons (lt_succ_self last)] at hspan
  rw [rest, hlast]
  omega

/-- At the start of a segment outside inlined code, the count up to its guard is published. -/
theorem segmentCharge_resume_of_publishes (meter : Meter) (hip : ip < program.code.length)
    (h : program.publishes stepArmed ip = true) :
    (program.segmentPoll stepArmed state ip).resume = state.count ∧
      (program.segmentCharge stepArmed meter state ip).resume + program.tailGuard meter ip =
        state.count + rest program.startsSegment program.code.length (program.cost meter) ip := by
  have hstarts : program.startsSegment ip = true := by
    simp only [publishes, Bool.and_eq_true] at h
    exact h.1.2
  have hentry : program.segmentEntry meter ip =
      rest program.startsSegment program.code.length (program.cost meter) ip := by
    simp [segmentEntry, charge, hstarts]
  have hguard : program.segmentGuard meter ip = program.tailGuard meter ip := by
    simp [segmentGuard, hstarts]
  have hle : program.tailGuard meter ip ≤ _ := tailGuard_le hip
  refine ⟨by simp [segmentPoll, h], ?_⟩
  simp only [segmentCharge, segmentPoll_count, h, hguard, hentry, Bool.true_and, bne_iff_ne, ne_eq,
    ite_not]
  split
  · simp only [segmentPoll, h, if_true]
    omega
  · show _ - _ + _ = _
    omega

/-- What a bail at an instruction reports: outside inlined code everything up to the
guard of the segment, inside it what was published before. -/
structure Reports (program : JitFunction) (meter : Meter) (entry : Nat) (visits : List Visit)
    (ip : Nat) : Prop where
  outside : program.inlined ip = false →
    (program.segmentCharge true meter (program.segmentRun true meter entry visits) ip).resume +
        program.tailGuard meter ip =
      entry + paid (program.cost meter) visits +
        rest program.startsSegment program.code.length (program.cost meter) ip
  inside : program.inlined ip = true →
    (program.segmentRun true meter entry visits).resume =
      entry + paid (program.cost meter) (program.publishedVisits visits)

/-- An instruction that cannot bail adopts no count. -/
theorem extra_of_batchSafe (h : program.Goes meter visit target)
    (hsafe : program.batchSafe visit.ip = true) : visit.extra = 0 := by
  by_contra hne
  have hadopts := h.2 hne
  cases hget : program.code[visit.ip]? with
  | none => simp [hget] at hadopts
  | some instr =>
    simp only [batchSafe, hget, Option.any_some] at hsafe hadopts
    cases instr <;> simp_all [JitInstr.stepBatchSafe, JitInstr.adoptsCount]

theorem Reports.initial (hstart : program.startsSegment start = true)
    (hlt : start < program.code.length) : Reports program meter entry [] start := by
  refine ⟨fun houtside => ?_, fun _ => rfl⟩
  have hpublishes : program.publishes true start = true := by simp [publishes, hstart, houtside]
  simpa [segmentRun] using (segmentCharge_resume_of_publishes meter hlt hpublishes).2

theorem segmentRun_resume (visits : List Visit) :
    (program.segmentRun stepArmed meter entry (visit :: visits)).resume =
      (program.segmentCharge stepArmed meter (program.segmentRun stepArmed meter entry visits)
        visit.ip).resume := rfl

/-- Leaving an instruction for inlined code leaves what it published. -/
theorem Reports.published (h : Reports program meter entry visits ip)
    (hnext : program.Goes meter ⟨ip, extra⟩ target) (hinside : program.inlined target = true) :
    (program.segmentRun true meter entry (⟨ip, extra⟩ :: visits)).resume =
      entry + paid (program.cost meter) (program.publishedVisits (⟨ip, extra⟩ :: visits)) := by
  rw [segmentRun_resume]
  have hip := (segments_stretches.lt hnext).1
  cases hinlined : program.inlined ip with
  | true =>
    have hnot : program.publishes true ip = false := by simp [publishes, hinlined]
    rw [(segmentCharge_resume_of_not meter hnot).2, h.inside hinlined]
    simp [hinlined]
  | false =>
    -- the instruction is the last one of its segment
    have hend : ip + 1 < program.code.length → program.startsSegment (ip + 1) = true := by
      intro _
      rcases segments_stretches.next hnext with rfl | ⟨_, hafter⟩
      · exact startsSegment_of_boundary (by simp [hinlined, hinside])
      · exact hafter (by assumption)
    have hreported := h.outside hinlined
    rw [rest_of_end hip hend, tailGuard, segmentEnd, stretchEnd_of_start hip hend,
      Nat.add_sub_cancel] at hreported
    cases hsafe : program.batchSafe ip with
    | true =>
      have hextra : extra = 0 := extra_of_batchSafe hnext hsafe
      simp only [hsafe, if_true, add_zero] at hreported
      simp [hinlined, hsafe, hextra]
      omega
    | false =>
      simp only [hsafe, Bool.false_eq_true, if_false] at hreported
      have hvisits : program.publishedVisits (⟨ip, extra⟩ :: visits) = visits := by
        simp [hinlined, hsafe]
      rw [hvisits]
      exact add_right_cancel hreported

/-- One more visit. -/
theorem Reports.step (hstart : program.startsSegment start = true)
    (htrail : Trail (program.Goes meter) start visits ip)
    (h : Reports program meter entry visits ip) (hnext : program.Goes meter ⟨ip, extra⟩ target) :
    Reports program meter entry (⟨ip, extra⟩ :: visits) target := by
  refine ⟨fun houtside => ?_, h.published hnext⟩
  obtain ⟨hip, htarget⟩ := segments_stretches.lt hnext
  cases hstarts : program.startsSegment target with
  | true =>
    have hpublishes : program.publishes true target = true := by simp [publishes, hstarts, houtside]
    have harrival := @arrival_eq _ _ (program.cost meter) _ start entry _ target segments_stretches
      hstart (htrail.step extra hnext)
    rw [(segmentCharge_resume_of_publishes meter htarget hpublishes).2, segmentRun_count, harrival,
      if_pos hstarts, add_zero]
  | false =>
    -- the same segment goes on, and the instruction before cannot bail
    have hnot : program.publishes true target = false := by simp [publishes, hstarts]
    obtain rfl : target = ip + 1 := by
      rcases segments_stretches.next hnext with heq | ⟨hstarts', _⟩
      · exact heq
      · simp [hstarts] at hstarts'
    have hinlined : program.inlined ip = false := by
      by_contra hne
      have hboundary : program.startsSegment (ip + 1) = true :=
        startsSegment_of_boundary (by simp [houtside, hne])
      simp [hstarts] at hboundary
    have hsafe : program.batchSafe ip = true := by
      by_contra hne
      have hafter : program.startsSegment (ip + 1) = true :=
        startsSegment_of_bailing (by simpa using hne)
      simp [hstarts] at hafter
    have hextra : extra = 0 := extra_of_batchSafe hnext hsafe
    have hguard : program.tailGuard meter ip = program.tailGuard meter (ip + 1) := by
      rw [tailGuard, tailGuard, segmentEnd, segmentEnd, stretchEnd_of_not_start htarget hstarts]
    have hreported := h.outside hinlined
    rw [(segmentCharge_resume_of_not meter hnot).2, paid_cons, charged_mk, hextra]
    rw [rest_of_inside htarget hstarts] at hreported
    show (program.segmentCharge true meter (program.segmentRun true meter entry visits) ip).resume +
      _ = _
    omega

theorem reports_of_trail (hstart : program.isLeader start = true)
    (hlt : start < program.code.length) (h : Trail (program.Goes meter) start visits ip) :
    Reports program meter entry visits ip := by
  induction h with
  | start => exact Reports.initial (startsSegment_of_leader hstart) hlt
  | step extra htrail hnext ih => exact ih.step (startsSegment_of_leader hstart) htrail hnext

theorem lt_of_trail (hlt : start < program.code.length)
    (h : Trail (program.Goes meter) start visits ip) : ip < program.code.length := by
  cases h with
  | start => exact hlt
  | step _ _ hnext => exact (leaders_stretches.lt hnext).2

/-- Without the step meter nothing is ever published. -/
theorem segmentRun_resume_unarmed (visits : List Visit) :
    (program.segmentRun false meter entry visits).resume = entry := by
  induction visits with
  | nil => rfl
  | cons visit visits ih =>
    have hnot : program.publishes false visit.ip = false := rfl
    rw [segmentRun_resume, (segmentCharge_resume_of_not meter hnot).2, ih]

/-- What the segment model reports at a bail. -/
theorem segmentReported_eq (hstart : program.isLeader start = true)
    (hlt : start < program.code.length) (h : Trail (program.Goes meter) start visits ip)
    (hbail : program.CanBail ip point) :
    program.segmentReported stepArmed meter entry visits ip point =
      entry + paid (program.cost meter) (program.reportedVisits stepArmed visits ip) := by
  have hunpublished : program.publishes stepArmed ip = false →
      program.segmentReported stepArmed meter entry visits ip point =
        (program.segmentRun stepArmed meter entry visits).resume := by
    intro hnot
    cases point with
    | control => exact (segmentCharge_resume_of_not meter hnot).1
    | body => exact (segmentCharge_resume_of_not meter hnot).2
  have hip := lt_of_trail hlt h
  cases hinlined : program.inlined ip with
  | true =>
    rw [hunpublished (by simp [publishes, hinlined])]
    cases stepArmed with
    | false => simp [segmentRun_resume_unarmed]
    | true =>
      rw [(reports_of_trail hstart hlt h).inside hinlined]
      simp [hinlined]
  | false =>
    cases stepArmed with
    | false =>
      rw [hunpublished (by simp [publishes])]
      simp [segmentRun_resume_unarmed]
    | true =>
      have hvisits : program.reportedVisits true visits ip = visits := by simp [hinlined]
      rw [hvisits]
      cases point with
      | control =>
        have hstarts : program.startsSegment ip = true := hbail
        have hpublishes : program.publishes true ip = true := by simp [publishes, hstarts, hinlined]
        show (program.segmentPoll true (program.segmentRun true meter entry visits) ip).resume = _
        rw [(segmentCharge_resume_of_publishes meter hip hpublishes).1, segmentRun_count,
          arrival_eq segments_stretches (startsSegment_of_leader hstart) h, if_pos hstarts,
          add_zero]
      | body =>
        -- the instruction ends its segment, so that its own cost is the guard
        have hsafe : program.batchSafe ip = false := hbail
        have hend : ip + 1 < program.code.length → program.startsSegment (ip + 1) = true :=
          fun _ => startsSegment_of_bailing hsafe
        have hguard : program.tailGuard meter ip = program.cost meter ip := by
          simp [tailGuard, segmentEnd, stretchEnd_of_start hip hend, hsafe]
        have hreports : Reports program meter entry visits ip := reports_of_trail hstart hlt h
        have hreported := hreports.outside hinlined
        rw [hguard, rest_of_end hip hend] at hreported
        exact add_right_cancel hreported

theorem publishedVisits_suffix (visits : List Visit) : program.publishedVisits visits <:+ visits := by
  induction visits with
  | nil => exact suffix_refl _
  | cons visit visits ih =>
    unfold publishedVisits
    split
    · exact ih.trans (suffix_cons _ _)
    · split
      · exact suffix_refl _
      · exact suffix_cons _ _

theorem reportedVisits_suffix (visits : List Visit) :
    program.reportedVisits stepArmed visits ip <:+ visits := by
  unfold reportedVisits
  split
  · exact nil_suffix
  · split
    · exact publishedVisits_suffix visits
    · exact suffix_refl _

end Segments

/-! ## Anchors -/

theorem anchor_le (program : JitFunction) (ip : Nat) : program.anchor ip ≤ ip := by
  induction ip with
  | zero => exact le_refl _
  | succ ip ih =>
    simp only [anchor]
    split
    · exact le_refl _
    · exact ih.trans (le_succ ip)

/-- The instructions of a run have one anchor. -/
theorem anchor_of_between (hle : program.anchor ip ≤ other) (hother : other ≤ ip) :
    program.anchor other = program.anchor ip := by
  induction ip with
  | zero =>
    obtain rfl : other = 0 := by omega
    rfl
  | succ ip ih =>
    rcases eq_or_lt_of_le hother with rfl | hlt
    · rfl
    · have hsame : program.anchor (ip + 1) = program.anchor ip := by
        by_contra hne
        have hself : program.anchor (ip + 1) = ip + 1 := by
          simp only [anchor] at hne ⊢
          split at hne <;> simp_all
        omega
      rw [hsame] at hle ⊢
      exact ih hle (by omega)

/-- Where the block model is used, no leader stands between an instruction and its anchor. -/
theorem not_leader_of_anchor (h : program.stepBlockCosts = some blocks)
    (hip : ip < program.code.length) (hlater : program.anchor ip < later) (hle : later ≤ ip) :
    program.isLeader later = false := by
  unfold stepBlockCosts at h
  split at h
  · rename_i hcosts
    by_contra hleader
    have hanchor := hcosts.2 later (by omega) (by simpa using hleader)
    rw [anchor_of_between hlater.le hle] at hanchor
    omega
  · simp at h

theorem beforeAnchor_suffix {visits : List Visit}
    (h : program.beforeAnchor visits ip = some before) :
    before <:+ visits := by
  unfold beforeAnchor at h
  split at h
  · exact (Option.some.inj h) ▸ suffix_refl _
  · split at h
    · simp at h
    · rename_i first rest hdrop
      obtain rfl : rest = before := Option.some.inj h
      exact (suffix_cons first rest).trans (hdrop ▸ dropWhile_suffix _)

/-- The visits before the anchor, given those since. -/
theorem beforeAnchor_eq {visits : List Visit} (hvisits : visits = since ++ earlier)
    (hsince : program.anchor ip = ip ∧ since = [] ∨ program.anchor ip < ip ∧
      ∃ later extra, since = later ++ [⟨program.anchor ip, extra⟩] ∧
        ∀ visit ∈ later, visit.ip ≠ program.anchor ip) :
    program.beforeAnchor visits ip = some earlier := by
  unfold beforeAnchor
  rcases hsince with ⟨hself, rfl⟩ | ⟨hless, later, extra, rfl, hlater⟩
  · rw [if_pos hself, hvisits, nil_append]
  · rw [if_neg (Nat.ne_of_lt hless), hvisits, append_assoc,
      dropWhile_append_of_pos (by simpa using hlater)]
    simp

/-! ## The block model -/

section Blocks

variable {blocks : BlockCosts}

theorem blockStart_spec (program : JitFunction) (ip : Nat) : program.blockStart ip ≤ ip ∧
    program.isLeader (program.blockStart ip) = true ∧
    ∀ later, program.blockStart ip < later → later ≤ ip → program.isLeader later = false := by
  induction ip with
  | zero => exact ⟨le_refl _, by simp [blockStart, isLeader], fun later h _ => by omega⟩
  | succ ip ih =>
    unfold blockStart
    split
    · rename_i hleader
      exact ⟨le_refl _, hleader, fun later h hle => by omega⟩
    · rename_i hleader
      obtain ⟨hle, hstart, hnone⟩ := ih
      refine ⟨by omega, hstart, fun later hlater hlast => ?_⟩
      rcases eq_or_lt_of_le hlast with rfl | hlt
      · simpa using hleader
      · exact hnone later hlater (by omega)

/-- A block has one leader. -/
theorem blockStart_of_between (hle : program.blockStart ip ≤ other) (hother : other ≤ ip) :
    program.blockStart other = program.blockStart ip := by
  obtain ⟨hstart, hleader, hnone⟩ := blockStart_spec program ip
  obtain ⟨hstart', hleader', hnone'⟩ := blockStart_spec program other
  rcases lt_trichotomy (program.blockStart other) (program.blockStart ip) with h | h | h
  · simp [hnone' _ h hle] at hleader
  · exact h
  · simp [hnone _ h (by omega)] at hleader'

/-- The total of a block splits at an instruction. -/
theorem blockTotal_eq (meter : Meter) (hip : ip < program.code.length) :
    program.blockTotal meter ip = program.costBefore meter ip +
      rest program.isLeader program.code.length (program.cost meter) ip := by
  obtain ⟨hle, _, hnone⟩ := blockStart_spec program ip
  have hend := stretchEnd_of_between hle hip hnone
  rw [blockTotal, blockEnd, hend, rest]
  have hlt := (@lt_stretchEnd program.isLeader program.code.length ip hip).1
  exact (span_append hle hlt.le).symm

section Charged

variable (h : program.stepBlockCosts = some blocks)

include h

theorem chargeAt_eq (ip : Nat) : blocks.chargeAt meter ip =
      charge program.isLeader program.code.length (program.cost meter) ip := by
  unfold stepBlockCosts at h
  split at h
  · cases h
    unfold charge
    cases hleader : program.isLeader ip with
    | false => simp [hleader]
    | true =>
      have hstart : program.blockStart ip = ip := by
        cases ip with
        | zero => rfl
        | succ ip => simp [blockStart, hleader]
      simp [hleader, blockTotal, hstart, blockEnd, rest]
  · simp at h

theorem adjustAt_eq (ip : Nat) : blocks.adjustAt meter ip =
      program.blockTotal meter ip - program.costBefore meter (program.anchor ip) := by
  unfold stepBlockCosts at h
  split at h
  · cases h
    rfl
  · simp at h

theorem blockRun_eq (visits : List Visit) : blockRun blocks meter entry visits =
      arrival program.isLeader program.code.length (program.cost meter) entry visits := by
  induction visits with
  | nil => rfl
  | cons visit visits ih => rw [blockRun, arrival, ih, chargeAt_eq h]

/-- What the block model reports: what was paid, less the cost since the anchor. -/
theorem blockReported_eq {visits : List Visit} (hstart : program.isLeader start = true)
    (hlt : start < program.code.length) (htrail : Trail (program.Goes meter) start visits ip) :
    blockReported blocks meter entry visits ip + span (program.cost meter) (program.anchor ip) ip =
      entry + paid (program.cost meter) visits := by
  have hip := lt_of_trail hlt htrail
  have hanchor := anchor_le program ip
  obtain ⟨hle, hleader, hnone⟩ := blockStart_spec program ip
  have hinside : program.blockStart ip ≤ program.anchor ip := by
    by_contra hless
    simp [not_leader_of_anchor h hip (Nat.lt_of_not_le hless) hle] at hleader
  have hsplit := @span_append (program.cost meter) _ _ _ hinside hanchor
  have htotal := blockTotal_eq meter hip
  have hrunning := @running_eq _ _ (program.cost meter) _ _ entry _ _ leaders_stretches hstart htrail
  rw [← blockRun_eq h, ← chargeAt_eq h] at hrunning
  rw [blockReported, adjustAt_eq h, hrunning, htotal]
  have hbefore : program.costBefore meter (program.anchor ip) =
      span (program.cost meter) (program.blockStart ip) (program.anchor ip) := by
    rw [costBefore, blockStart_of_between hinside hanchor]
  rw [hbefore, costBefore, ← hsplit]
  push_cast
  ring

/-- The block model is exact unless a callee charged between the anchor and the bail. -/
theorem blockReported_exact_iff {visits : List Visit} (hstart : program.isLeader start = true)
    (hlt : start < program.code.length) (htrail : Trail (program.Goes meter) start visits ip)
    (hbefore : program.beforeAnchor visits ip = some before) :
    blockReported blocks meter entry visits ip =
        ((entry + paid (program.cost meter) before : Nat) : Int) ↔
      ∀ visit ∈ visits.take (visits.length - before.length), visit.extra = 0 := by
  have hip := lt_of_trail hlt htrail
  obtain ⟨since, earlier, hvisits, hpaid, hcases⟩ :=
    @exists_since _ _ (program.cost meter) _ _ _ _ leaders_stretches hstart _ htrail
      (anchor_le program ip) fun later hlater hle => not_leader_of_anchor h hip hlater hle
  obtain rfl : earlier = before := by
    have := beforeAnchor_eq hvisits hcases
    rw [hbefore] at this
    exact (Option.some.inj this).symm
  have hreported : blockReported blocks meter entry visits ip + _ = _ :=
    blockReported_eq h hstart hlt htrail
  have hsince : visits.take (visits.length - earlier.length) = since := by
    rw [hvisits]
    simp
  have hzero : (since.map Visit.extra).sum = 0 ↔ ∀ visit ∈ since, visit.extra = 0 := by
    simp [sum_eq_zero_iff]
  rw [hsince, ← hzero]
  have htotal : paid (program.cost meter) visits = span (program.cost meter) (program.anchor ip) ip +
      (since.map Visit.extra).sum + paid (program.cost meter) earlier := by
    rw [hvisits, paid_append, hpaid]
  rw [htotal] at hreported
  constructor <;> intro heq <;> omega

end Charged

end Blocks

end JitFunction

/-- At every bail of every path, the segment model reports the count before the
resume anchor exactly if nothing was charged between the anchor and what was
published last, and the block model does exactly if no callee charged anything
between the anchor and the bail. -/
theorem reported_exact_iff (program : JitFunction) (osr : Bool) (limits : JitLimits)
    (facts : ValidationFacts) (_h : validateWithLimits program osr limits = .ok facts)
    (meter : Meter) (stepArmed : Bool) (start entry : Nat) (hstart : program.isLeader start = true)
    (hlt : start < program.code.length) (visits : List Visit) (ip : Nat)
    (htrail : Trail (program.Goes meter) start visits ip) (before : List Visit)
    (hbefore : program.beforeAnchor visits ip = some before) :
    (∀ point, program.CanBail ip point →
      (program.segmentReported stepArmed meter entry visits ip point =
          entry + paid (program.cost meter) before ↔
        ∀ visit ∈ between (program.reportedVisits stepArmed visits ip) before,
          visit.charged (program.cost meter) = 0)) ∧
    ∀ blocks, program.stepBlockCosts = some blocks →
      (JitFunction.blockReported blocks meter entry visits ip =
          ((entry + paid (program.cost meter) before : Nat) : Int) ↔
        ∀ visit ∈ visits.take (visits.length - before.length), visit.extra = 0) := by
  refine ⟨fun point hbail => ?_, fun blocks hblocks =>
    JitFunction.blockReported_exact_iff hblocks hstart hlt htrail hbefore⟩
  rw [JitFunction.segmentReported_eq hstart hlt htrail hbail, add_left_cancel_iff]
  exact paid_eq_iff (JitFunction.reportedVisits_suffix visits)
    (JitFunction.beforeAnchor_suffix hbefore)

/-- An instruction of the caller and one of an inlined callee. -/
def inlinedAfter (instr : JitInstr) : JitFunction where
  nParams := 2
  nRegs := 3
  regTypes := [.int, .int, .int]
  zeroInitRegs := []
  code := [instr, .add 2 2 1, .return 2]
  instructionOrigins := [⟨0, 0, 1, 0, false⟩, ⟨1, 1, 1, 0, true⟩, ⟨2, 2, 1, 0, false⟩]
  sourceInstructionCount := 3
  memoScopes := []
  coldBlocks := []
  resumeLiveRegs := []

theorem inlinedAfter_trail (h : 1 ∈ (inlinedAfter instr).successors 0) :
    Trail ((inlinedAfter instr).Goes .steps) 0 [⟨0, 0⟩] 1 :=
  .step 0 .start ⟨h, fun hne => absurd rfl hne⟩

/-- After a load, a bail of the inlined addition reports the one step of the load. -/
theorem inlinedAfter_load_exact :
    (∃ facts, validateWithLimits (inlinedAfter (.loadInt 2 1)) false .default = .ok facts) ∧
      (inlinedAfter (.loadInt 2 1)).beforeAnchor [⟨0, 0⟩] 1 = some [⟨0, 0⟩] ∧
      (inlinedAfter (.loadInt 2 1)).segmentReported true .steps 0 [⟨0, 0⟩] 1 .body =
        0 + paid ((inlinedAfter (.loadInt 2 1)).cost .steps) [⟨0, 0⟩] := by
  obtain ⟨facts, hvalid⟩ :
      ∃ facts, validateWithLimits (inlinedAfter (.loadInt 2 1)) false .default = .ok facts :=
    ⟨_, rfl⟩
  have hbefore : (inlinedAfter (.loadInt 2 1)).beforeAnchor [⟨0, 0⟩] 1 = some [⟨0, 0⟩] := rfl
  obtain ⟨hsegment, _⟩ := reported_exact_iff (inlinedAfter (.loadInt 2 1)) false .default facts
    hvalid .steps true 0 0 rfl (by decide) [⟨0, 0⟩] 1 (inlinedAfter_trail (by decide)) _ hbefore
  exact ⟨⟨facts, hvalid⟩, hbefore, (hsegment .body rfl).mpr (by decide)⟩

/-- After an addition, which can bail itself, the segment model does not report the
step of that addition; the block model does. -/
theorem inlinedAfter_add_short :
    (∃ facts, validateWithLimits (inlinedAfter (.add 2 0 1)) false .default = .ok facts) ∧
      Trail ((inlinedAfter (.add 2 0 1)).Goes .steps) 0 [⟨0, 0⟩] 1 ∧
      (inlinedAfter (.add 2 0 1)).beforeAnchor [⟨0, 0⟩] 1 = some [⟨0, 0⟩] ∧
      paid ((inlinedAfter (.add 2 0 1)).cost .steps) [⟨0, 0⟩] = 1 ∧
      (inlinedAfter (.add 2 0 1)).CanBail 1 .body ∧
      (inlinedAfter (.add 2 0 1)).segmentReported true .steps 0 [⟨0, 0⟩] 1 .body = 0 ∧
      (inlinedAfter (.add 2 0 1)).stepBlockCosts.map
        (JitFunction.blockReported · .steps 0 [⟨0, 0⟩] 1) = some 1 :=
  ⟨⟨_, rfl⟩, inlinedAfter_trail (by decide), rfl, rfl, rfl, rfl, by decide +kernel⟩

end Jit
