import RSScript.Mir.Paths

/-!
# No use after a move

The move pass keeps, for each block, every place that some path moved and did not
initialize again. An instruction passes only if the places it needs are not among
them.
-/

namespace RSScript.Mir

open FlowGraph Guards Outcome Worklist Finset MirInstruction

/-- A path moved a place and did not initialize it afterwards. -/
def Moved (trace : List Site) (place : PlaceId) : Prop :=
  ∃ before site after, trace = before ++ site :: after ∧ site.instruction.MovesPlace place ∧
    ∀ later ∈ after, ¬later.instruction.InitializesPlace place

theorem not_moved_nil : ¬Moved [] place := by
  rintro ⟨before, site, after, heq, -⟩
  simp at heq

variable {trace : List Site}

/-- A place moved on a longer path was moved by its last instruction, or before
and not initialized by it. -/
theorem Moved.of_snoc (h : Moved (trace ++ [site]) place) : site.instruction.MovesPlace place ∨
      (Moved trace place ∧ ¬site.instruction.InitializesPlace place) := by
  obtain ⟨before, mover, after, heq, hmoves, hafter⟩ := h
  rcases List.eq_nil_or_concat after with rfl | ⟨after, last, rfl⟩
  · obtain ⟨-, hlast⟩ := List.append_inj' heq rfl
    obtain rfl := List.singleton_inj.mp hlast
    exact .inl hmoves
  · rw [List.concat_eq_append] at heq hafter
    rw [← List.cons_append, ← List.append_assoc] at heq
    obtain ⟨rfl, hlast⟩ := List.append_inj' heq rfl
    obtain rfl := List.singleton_inj.mp hlast
    refine .inr ⟨⟨before, mover, after, rfl, hmoves, fun later hlater => ?_⟩, ?_⟩
    · exact hafter later (List.mem_append_left _ hlater)
    · exact hafter site (by simp)

/-! ## One instruction -/

section Instruction

variable {movedPlaces after : Finset PlaceId}

/-- An access that needs its place finds it there, and keeps the moves before. -/
theorem transferAccess_needs (hneeds : access.Needs)
    (h : transferAccess function movedPlaces (access, place) = .ok after) :
    place ∉ movedPlaces ∧ movedPlaces ⊆ after ∧ (access.Moves → place ∈ after) := by
  cases access with
  | write => exact absurd rfl hneeds
  | take | drop =>
    obtain ⟨hlive, rfl⟩ := (by simpa [transferAccess, moveOut, checkLive] using h)
    exact ⟨hlive, subset_insert _ _, fun _ => mem_insert_self _ _⟩
  | read | borrow | mutate | cleanup =>
    obtain ⟨hlive, rfl⟩ := (by simpa [transferAccess, useLive, checkLive] using h)
    exact ⟨hlive, Subset.refl _, by simp [PlaceAccess.Moves]⟩

theorem transferAccesses_needs {accesses : List (PlaceAccess × PlaceId)}
    (hneeds : ∀ entry ∈ accesses, entry.1.Needs)
    (h : accesses.foldlM (transferAccess function) movedPlaces = .ok after) : movedPlaces ⊆ after ∧
      ∀ entry ∈ accesses, entry.2 ∉ movedPlaces ∧ (entry.1.Moves → entry.2 ∈ after) := by
  induction accesses generalizing movedPlaces with
  | nil =>
    obtain rfl : movedPlaces = after := by simpa using h
    exact ⟨Subset.refl _, by simp⟩
  | cons entry accesses ih =>
    obtain ⟨hhead, htail⟩ := List.forall_mem_cons.mp hneeds
    obtain ⟨next, hentry, hrest⟩ := bind_eq_ok.mp h
    obtain ⟨hlive, hgrow, hmoves⟩ := transferAccess_needs hhead hentry
    obtain ⟨hgrow', hentries⟩ := ih htail hrest
    refine ⟨hgrow.trans hgrow', List.forall_mem_cons.mpr ⟨⟨hlive, ?_⟩, ?_⟩⟩
    · exact fun hm => hgrow' (hmoves hm)
    · intro other hother
      obtain ⟨hlive', hmoves'⟩ := hentries other hother
      exact ⟨fun hmem => hlive' (hgrow hmem), hmoves'⟩

theorem argumentAccesses_need {arguments : List MirCallArgument} :
    ∀ entry ∈ arguments.flatMap MirCallArgument.accesses, entry.1.Needs := by
  intro entry hentry
  obtain ⟨argument, -, hmem⟩ := List.mem_flatMap.mp hentry
  cases argument with
  | value => exact absurd hmem (by simp [MirCallArgument.accesses])
  | _ =>
    rw [List.mem_singleton.mp hmem]
    simp [PlaceAccess.Needs]

/-- An instruction initializes one place and does nothing else with places, or
initializes none. -/
theorem accesses_write (instruction : MirInstruction) :
    (∃ place, instruction.accesses = [(.write, place)]) ∨
      ∀ entry ∈ instruction.accesses, entry.1.Needs := by
  cases instruction with
  | writePlace place value => exact .inl ⟨place, rfl⟩
  | acquireResource place ty source => exact .inl ⟨place, rfl⟩
  | call | makeClosure | callClosure | spawn => exact .inr argumentAccesses_need
  | tryResult destination source cleanup =>
    refine .inr fun entry hentry => ?_
    obtain ⟨place, -, rfl⟩ := List.mem_map.mp hentry
    simp [PlaceAccess.Needs]
  | _ =>
    refine .inr ?_
    simp [accesses, effects, Effects.compute, Effects.mutate, PlaceAccess.Needs]

/-- What the move table establishes about an instruction. -/
structure MoveChecked (instruction : MirInstruction) (movedPlaces after : Finset PlaceId) : Prop where
  needs : ∀ entry ∈ instruction.accesses, entry.1.Needs → entry.2 ∉ movedPlaces
  moves : ∀ place, instruction.MovesPlace place → place ∈ after
  keeps : ∀ place ∈ movedPlaces, ¬instruction.InitializesPlace place → place ∈ after

theorem moveChecked_of_transferMoveState {instruction : MirInstruction}
    (h : transferMoveState function instruction movedPlaces = .ok after) :
    MoveChecked instruction movedPlaces after := by
  rw [transferMoveState_eq] at h
  rcases accesses_write instruction with ⟨place, hplace⟩ | hneeds
  · obtain rfl : movedPlaces.erase place = after := by simpa [hplace, transferAccess] using h
    refine ⟨?_, ?_, ?_⟩
    · simp [hplace, PlaceAccess.Needs]
    · simp [MovesPlace, hplace, PlaceAccess.Moves]
    · intro other hother hinit
      refine mem_erase.mpr ⟨?_, hother⟩
      rintro rfl
      exact hinit (by simp [InitializesPlace, hplace])
  · obtain ⟨hgrow, hentries⟩ := transferAccesses_needs hneeds h
    refine ⟨fun entry hentry _ => (hentries entry hentry).1, ?_, fun _ hplace _ => hgrow hplace⟩
    rintro place ⟨access, hmem, hmoves⟩
    exact (hentries _ hmem).2 hmoves

end Instruction

/-! ## Joins by union -/

section Union

variable {J : Joining (Finset Nat) MirValidationError}

theorem joinSets_of_unchanged (h : joinSets existing fact = (entry, false)) :
    entry = existing ∧ fact ⊆ existing := by
  obtain ⟨rfl, hcard⟩ := Prod.mk.inj h
  have hcard : (existing ∪ fact).card = existing.card := by simpa using hcard
  have heq : existing = existing ∪ fact := eq_of_subset_of_card_le subset_union_left hcard.le
  exact ⟨heq.symm, by
    rw [heq]
    exact subset_union_right⟩

theorem lawfulJoin_of_joinSets (hbottom : J.bottom = ∅)
    (hjoin : ∀ existing fact, J.join existing fact = .ok (joinSets existing fact)) :
    LawfulJoin J where
  bottom fact := by
    rw [hbottom, hjoin, joinSets, empty_union]
    exact ⟨_, rfl⟩
  unchanged {existing fact entry} h := by
    rw [hjoin] at h
    exact (joinSets_of_unchanged (Except.ok.inj h)).1

/-- Facts only grow, and a fact includes what flowed into its block. -/
theorem accounts_of_joinSets
    (hjoin : ∀ existing fact, J.join existing fact = .ok (joinSets existing fact)) :
    Accounts J.toProblem fun current fact => fact ⊆ current where
  refl _ := Subset.refl _
  trans hab hbc := hbc.trans hab
  same {target existing fact} h := by
    cases hsets : joinSets existing fact with
    | mk entry changed =>
      cases changed with
      | true => simp [Joining.toProblem, hjoin, hsets] at h
      | false => exact (joinSets_of_unchanged hsets).2
  changed {target existing fact replacement} h := by
    obtain rfl : existing ∪ fact = replacement := by
      simp only [Joining.toProblem, hjoin, bind_eq_ok, pure_eq_ok] at h
      obtain ⟨_, hsets, h⟩ := h
      obtain rfl := Except.ok.inj hsets
      exact Option.some.inj (Option.ite_none_right_eq_some.mp h).2
    exact ⟨subset_union_left, subset_union_right⟩

end Union

/-! ## The pass -/

/-- The set has every place the path moved away. -/
def TracksMoves (trace : List Site) (movedPlaces : Finset PlaceId) : Prop :=
  ∀ place, Moved trace place → place ∈ movedPlaces

theorem TracksMoves.step (h : TracksMoves trace movedPlaces)
    (hstep : transferMoveState function site.instruction movedPlaces = .ok after) :
    TracksMoves (trace ++ [site]) after := by
  intro place hplace
  have hchecked := moveChecked_of_transferMoveState hstep
  rcases hplace.of_snoc with hmoves | ⟨hbefore, hinit⟩
  · exact hchecked.moves place hmoves
  · exact hchecked.keeps place (h place hbefore) hinit

theorem analyzed_moves (h : verifyMoveDataflow fuel function = .ok ()) :
    ∃ entries, Analyzed function (fun _ => transferMoveState function)
      (fun _ _ => (return () : Verified Unit) = .ok ()) entries TracksMoves := by
  have hflow : (moveProblem function).flow =
      blockFlow function (transferMoveState function) fun _ _ => return () := rfl
  refine analyzed_of_solve hflow (lawfulJoin_of_joinSets rfl fun _ _ => rfl)
    (accounts_of_joinSets fun _ _ => rfl) ?_ ?_ TracksMoves.step h
  · exact fun hle htracks place hplace => hle (htracks place hplace)
  · exact fun place hplace => absurd hplace not_moved_nil

/-- No instruction of a path needs a place the path moved away. -/
theorem not_moved_of_verifyMoveDataflow (h : verifyMoveDataflow fuel function = .ok ())
    (hpath : function.Path trace (block, position))
    (hfound : function.instructionAt block position = some instruction)
    (hmem : (access, place) ∈ instruction.accesses) (hneeds : access.Needs) :
    ¬Moved trace place := by
  obtain ⟨entries, hanalyzed⟩ := analyzed_moves h
  obtain ⟨_, movedPlaces, after, hmoved, hstep⟩ := hanalyzed.instruction hpath hfound
  intro hplace
  exact (moveChecked_of_transferMoveState hstep).needs _ hmem hneeds (hmoved place hplace)

end RSScript.Mir
