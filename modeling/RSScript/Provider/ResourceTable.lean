import Mathlib.Data.List.Induction
import Mathlib.Data.List.Nodup
import Mathlib.Data.List.Perm.Basic
import RSScript.Abi.Wire

/-!
# The resource table of a run

Providers register resources with the runtime and get handles for them. A slot of
the table is reused after its resource was cleaned up, under a new generation.
The cleanup of a resource is the provider's own code: it may succeed, fail, or
panic, and a panic unwinds through the table.

`ProviderResourceRegistry`, which keeps the table behind a lock and refuses every call once a panic
has poisoned the lock, is not modelled.
-/

namespace RSScript.Provider

open RSScript.Abi Nat List

inductive ProviderErrorCode where
  | invalidArgument
  | notFound
  | permissionDenied
  | cancelled
  | deadlineExceeded
  | resourceExhausted
  | unavailable
  | internal
  deriving DecidableEq, Repr

structure ProviderError where
  code : ProviderErrorCode
  message : String
  retryable : Bool := false
  details : Option WireValue := none

/-! ## Handles -/

/-- A slot and the generation in which it was given out. -/
structure ResourceHandle where
  slot : UInt32
  generation : UInt32
  deriving DecidableEq, Repr

namespace ResourceHandle

/-- The generation in the upper half of a word, the slot in the lower. -/
def toNativeId (handle : ResourceHandle) : Int64 :=
  ((handle.generation.toUInt64 <<< 32) ||| handle.slot.toUInt64).toInt64

def fromNativeId (id : Int64) : ResourceHandle where
  slot := id.toUInt64.toUInt32
  generation := (id.toUInt64 >>> 32).toUInt32

def toWire (handle : ResourceHandle) (resourceType : WireResourceTypeId) : WireResourceHandle :=
  ⟨resourceType, handle.slot, handle.generation⟩

def fromWire (handle : WireResourceHandle) : ResourceHandle := ⟨handle.slot, handle.generation⟩

/-- The two halves of a 64-bit number. -/
theorem join_halves (bits : UInt64) :
    ((bits >>> 32).toUInt32.toUInt64 <<< 32) ||| bits.toUInt32.toUInt64 = bits := by
  apply UInt64.toNat_inj.mp
  simp only [UInt64.toNat_or, UInt64.toNat_shiftLeft, UInt32.toNat_toUInt64, UInt64.toNat_toUInt32,
    UInt64.toNat_shiftRight, UInt64.toNat_ofNat]
  have hbits := bits.toNat_lt
  have hlow : bits.toNat % 2 ^ 32 < 2 ^ 32 := mod_lt _ (by decide)
  have hhigh : bits.toNat >>> 32 < 2 ^ 32 := by rw [shiftRight_eq_div_pow]; omega
  have hshift : (bits.toNat >>> 32) <<< 32 < 2 ^ 64 := by
    rw [shiftLeft_eq, shiftRight_eq_div_pow]; omega
  rw [show 32 % 2 ^ 64 % 64 = 32 from rfl, mod_eq_of_lt hhigh, mod_eq_of_lt hshift,
    ← shiftLeft_add_eq_or_of_lt hlow, shiftLeft_eq, shiftRight_eq_div_pow]
  omega

/-- A native id is a handle and nothing else. -/
theorem toNativeId_fromNativeId (id : Int64) : (fromNativeId id).toNativeId = id := by
  rw [toNativeId, fromNativeId, join_halves, Int64.toInt64_toUInt64]

end ResourceHandle

/-! ## The table -/

/-- What the cleanup of a resource comes to. -/
inductive CleanupResult where
  | returned (result : Except ProviderError Unit)
  | panicked

/-- What a call of the table comes to. -/
inductive CallResult (α : Type) where
  | returned (result : α)
  | unwound

variable {R : Type}

/-- A resource with its number among the registered ones, which nothing reads. -/
structure Registered (R : Type) where
  ticket : Nat
  resource : R

/-- A slot enters its next generation when a cleanup returns. -/
structure ResourceSlot (R : Type) where
  generation : UInt32 := 0
  resource : Option (Registered R) := none

/-- What happened to the table, for the history. -/
inductive TableEvent where
  /-- The handle was returned for the resource. -/
  | registered (handle : ResourceHandle) (ticket : Nat)
  /-- The handle was accepted, and the cleanup of the resource invoked. -/
  | invoked (handle : ResourceHandle) (ticket : Nat)
  deriving DecidableEq

/-- The slots and counters of a run. -/
structure ProviderResourceTable (R : Type) where
  slots : List (ResourceSlot R) := []
  limit : Option Nat
  live : Nat := 0
  peakLive : Nat := 0
  created : Nat := 0
  cleaned : Nat := 0
  cleanupFailures : Nat := 0
  /-- What happened so far; no operation reads it. -/
  history : List TableEvent := []

namespace ProviderResourceTable

def limitExceeded : ProviderError := ⟨.resourceExhausted, "provider resource limit exceeded", false, none⟩

def slotOutOfRange : ProviderError :=
  ⟨.resourceExhausted, "provider resource slot exceeds handle range", false, none⟩

def staleHandle : ProviderError :=
  ⟨.invalidArgument, "stale or invalid provider resource handle", false, none⟩

def alreadyClosed : ProviderError :=
  ⟨.invalidArgument, "provider resource is already closed", false, none⟩

/-- The first slot without a resource, or the one after the last. -/
def freeSlot (table : ProviderResourceTable R) : Nat :=
  table.slots.findIdx fun slot => slot.resource.isNone

/-- The slots with room for one more resource. -/
def grown (table : ProviderResourceTable R) : List (ResourceSlot R) :=
  if table.freeSlot = table.slots.length then table.slots ++ [⟨0, none⟩] else table.slots

/-- `register`: the first free slot, or a new one. -/
def register (table : ProviderResourceTable R) (resource : R) :
    Except ProviderError ResourceHandle × ProviderResourceTable R :=
  if table.limit.any (· ≤ table.live) then (.error limitExceeded, table)
  else
    let slot := table.freeSlot
    let generation := (table.grown[slot]?.map ResourceSlot.generation).getD 0
    let registered : Registered R := ⟨table.created, resource⟩
    let after := { table with
      slots := table.grown.set slot ⟨generation, some registered⟩
      live := table.live + 1
      peakLive := max table.peakLive (table.live + 1)
      created := table.created + 1 }
    if slot < 2 ^ 32 then
      let handle : ResourceHandle := ⟨.ofNat slot, generation⟩
      (.ok handle, { after with history := after.history ++ [.registered handle table.created] })
    else (.error slotOutOfRange, after)

variable (cleanupOf : R → CleanupResult)

/-- `cleanup`. A handle of another generation is stale. -/
def cleanup (table : ProviderResourceTable R) (handle : ResourceHandle) :
    CallResult (Except ProviderError Unit) × ProviderResourceTable R :=
  match table.slots[handle.slot.toNat]? with
  | none => (.returned (.error staleHandle), table)
  | some slot =>
    if slot.generation ≠ handle.generation then (.returned (.error staleHandle), table)
    else
      match slot.resource with
      | none => (.returned (.error alreadyClosed), table)
      | some registered =>
        let taken := { table with
          slots := table.slots.set handle.slot.toNat { slot with resource := none }
          history := table.history ++ [.invoked handle registered.ticket] }
        match cleanupOf registered.resource with
        | .panicked => (.unwound, taken)
        | .returned result =>
          (.returned result, { taken with
            slots := table.slots.set handle.slot.toNat ⟨slot.generation + 1, none⟩
            live := table.live - 1
            cleaned := table.cleaned + (if result.isOk then 1 else 0)
            cleanupFailures := table.cleanupFailures + (if result.isOk then 0 else 1) })

/-- The handles of the occupied slots, with the slot cut to 32 bits. -/
def occupiedHandles (table : ProviderResourceTable R) : List ResourceHandle :=
  table.slots.zipIdx.filterMap fun (slot, index) =>
    if slot.resource.isSome then some ⟨.ofNat index, slot.generation⟩ else none

/-- Clean up one handle after the other and collect the failures. -/
def cleanupEach : List ResourceHandle → ProviderResourceTable R →
    CallResult (List ProviderError) × ProviderResourceTable R
  | [], table => (.returned [], table)
  | handle :: handles, table =>
    match table.cleanup cleanupOf handle with
    | (.unwound, after) => (.unwound, after)
    | (.returned result, after) =>
      match cleanupEach handles after with
      | (.unwound, last) => (.unwound, last)
      | (.returned errors, last) =>
        (.returned ((match result with | .ok _ => [] | .error error => [error]) ++ errors), last)

def cleanupAll (table : ProviderResourceTable R) :
    CallResult (List ProviderError) × ProviderResourceTable R :=
  cleanupEach cleanupOf table.occupiedHandles table

end ProviderResourceTable

/-! ## Runs -/

inductive TableCall (R : Type) where
  | register (resource : R)
  | cleanup (handle : ResourceHandle)
  | cleanupAll

namespace ProviderResourceTable

variable (cleanupOf : R → CleanupResult)

/-- The table after a call; the caller catches a panic. -/
def after (table : ProviderResourceTable R) : TableCall R → ProviderResourceTable R
  | .register resource => (table.register resource).2
  | .cleanup handle => (table.cleanup cleanupOf handle).2
  | .cleanupAll => (table.cleanupAll cleanupOf).2

/-- The table after a list of calls. -/
def run (limit : Option Nat) (calls : List (TableCall R)) : ProviderResourceTable R :=
  calls.foldl (after cleanupOf) { limit := limit }

end ProviderResourceTable

/-! ## Accounts -/

/-- The resource whose cleanup was invoked. -/
def TableEvent.cleans : TableEvent → Option Nat
  | .invoked _ ticket => some ticket
  | .registered _ _ => none

/-- The generation and the resource of a registration in a slot. -/
def TableEvent.registration (slot : Nat) : TableEvent → Option (UInt32 × Nat)
  | .registered handle ticket =>
    if handle.slot.toNat = slot then some (handle.generation, ticket) else none
  | .invoked _ _ => none

namespace ProviderResourceTable

def occupied (table : ProviderResourceTable R) : Nat :=
  table.slots.countP fun slot => slot.resource.isSome

def invoked (table : ProviderResourceTable R) : List Nat := table.history.filterMap TableEvent.cleans

def registrations (table : ProviderResourceTable R) (slot : Nat) : List (UInt32 × Nat) :=
  table.history.filterMap (TableEvent.registration slot)

/-- The registrations in a slot after the first one. -/
def reuses (table : ProviderResourceTable R) (slot : Nat) : Nat :=
  (table.registrations slot).length - 1

/-- What the counters and the history of a table have to say. -/
structure Accounts (table : ProviderResourceTable R) : Prop where
  created : table.created = table.cleaned + table.cleanupFailures + table.live
  live : table.live = table.occupied
  limit : ∀ limit, table.limit = some limit → table.live ≤ limit
  once : ∀ ticket, table.invoked.count ticket ≤ 1
  handles : ∀ handle ticket ticket', .registered handle ticket ∈ table.history →
    .invoked handle ticket' ∈ table.history → ticket = ticket'

/-- The handle names the resource in its slot. -/
def Accepts (table : ProviderResourceTable R) (handle : ResourceHandle)
    (registered : Registered R) : Prop :=
  table.slots[handle.slot.toNat]? = some ⟨handle.generation, some registered⟩

/-- The call invokes a cleanup that panics. -/
def Unwinds (cleanupOf : R → CleanupResult) (table : ProviderResourceTable R) : TableCall R → Prop
  | .register _ => False
  | .cleanup handle => ∃ registered, table.Accepts handle registered ∧
      cleanupOf registered.resource = .panicked
  | .cleanupAll => ∃ handle registered, table.Accepts handle registered ∧
      cleanupOf registered.resource = .panicked

/-! ## One handle -/

/-- The table when the resource of a handle was taken out of it. -/
def taken (table : ProviderResourceTable R) (handle : ResourceHandle) (registered : Registered R) :
    ProviderResourceTable R :=
  { table with
    slots := table.slots.set handle.slot.toNat ⟨handle.generation, none⟩
    history := table.history ++ [.invoked handle registered.ticket] }

/-- The table after a cleanup that returned. -/
def closed (table : ProviderResourceTable R) (handle : ResourceHandle) (registered : Registered R)
    (result : Except ProviderError Unit) : ProviderResourceTable R :=
  { table with
    slots := table.slots.set handle.slot.toNat ⟨handle.generation + 1, none⟩
    live := table.live - 1
    cleaned := table.cleaned + (if result.isOk then 1 else 0)
    cleanupFailures := table.cleanupFailures + (if result.isOk then 0 else 1)
    history := table.history ++ [.invoked handle registered.ticket] }

/-- A handle is refused and nothing changes, or it names the resource in its slot. -/
theorem cleanup_cases (cleanupOf : R → CleanupResult) (table : ProviderResourceTable R)
    (handle : ResourceHandle) :
    (∃ error, table.cleanup cleanupOf handle = (.returned (.error error), table) ∧
      ∀ registered, ¬ table.Accepts handle registered) ∨
    ∃ registered, table.Accepts handle registered ∧
      (cleanupOf registered.resource = .panicked ∧
        table.cleanup cleanupOf handle = (.unwound, table.taken handle registered) ∨
      ∃ result, cleanupOf registered.resource = .returned result ∧ table.cleanup cleanupOf handle =
          (.returned result, table.closed handle registered result)) := by
  unfold cleanup Accepts
  rcases hslot : table.slots[handle.slot.toNat]? with _ | ⟨generation, resource⟩
  · exact .inl ⟨staleHandle, rfl, fun _ h => nomatch h⟩
  · by_cases hgeneration : generation = handle.generation
    · subst hgeneration
      cases resource with
      | none => exact .inl ⟨alreadyClosed, by simp, by simp⟩
      | some registered =>
        refine .inr ⟨registered, rfl, ?_⟩
        cases hcleanup : cleanupOf registered.resource with
        | panicked => exact .inl ⟨rfl, by simp [hcleanup, taken]⟩
        | returned result => exact .inr ⟨result, rfl, by simp [hcleanup, closed]⟩
    · exact .inl ⟨staleHandle, by simp [hgeneration], by simp [hgeneration]⟩

variable {handle : ResourceHandle} {registered : Registered R} {table : ProviderResourceTable R}
  {generation : UInt32} {slots : List (ResourceSlot R)} {index : Nat}

theorem Accepts.unique (h : table.Accepts handle registered)
    (h' : table.Accepts handle' registered') (hslot : handle'.slot = handle.slot) :
    registered' = registered := by
  unfold Accepts at h h'
  rw [hslot, h] at h'
  injection h' with h'
  injection h' with _ h'
  injection h' with h'
  exact h'.symm

/-- Closing one slot leaves what the other handles name. -/
theorem Accepts.of_closed
    (h : (table.closed handle registered result).Accepts handle' registered') :
    table.Accepts handle' registered' := by
  unfold Accepts closed at *
  rw [getElem?_set] at h
  split at h
  · split at h <;> simp at h
  · exact h

theorem Accepts.closed (h : table.Accepts handle' registered') (hslot : handle'.slot ≠ handle.slot)
    (result : Except ProviderError Unit) :
    (table.closed handle registered result).Accepts handle' registered' := by
  have hne : handle.slot.toNat ≠ handle'.slot.toNat := fun he => hslot (UInt32.toNat_inj.mp he.symm)
  unfold Accepts ProviderResourceTable.closed
  rw [getElem?_set_ne hne]
  exact h

/-! ## The invariant -/

/-- The resources in the slots. -/
def held (table : ProviderResourceTable R) : List Nat :=
  table.slots.filterMap fun slot => slot.resource.map Registered.ticket

theorem length_held : table.held.length = table.occupied := by
  unfold held occupied
  rw [length_filterMap_eq_countP]
  simp

/-- A slot against the registrations in it: the generation counts those that were cleaned up. -/
def ResourceSlot.Fits (registrations : List (UInt32 × Nat)) (slot : ResourceSlot R) : Prop :=
  match slot.resource with
  | none => slot.generation = .ofNat registrations.length
  | some registered => ∃ earlier, registrations = earlier ++ [(slot.generation, registered.ticket)] ∧
      slot.generation = .ofNat earlier.length

/-- How the counters, the slots and the history of a table fit together. -/
structure Consistent (table : ProviderResourceTable R) : Prop where
  created : table.created = table.cleaned + table.cleanupFailures + table.live
  live : table.live = table.held.length
  limit : ∀ limit, table.limit = some limit → table.live ≤ limit
  tickets : (table.invoked ++ table.held).Nodup
  fresh : ∀ ticket ∈ table.invoked ++ table.held, ticket < table.created
  generations : ∀ slot, (table.registrations slot).map Prod.fst =
    (List.range (table.registrations slot).length).map UInt32.ofNat
  fits : ∀ index < 2 ^ 32, ∀ slot, table.slots[index]? = some slot →
    ResourceSlot.Fits (table.registrations index) slot
  unused : ∀ index, table.slots.length ≤ index → table.registrations index = []
  invoked : ∀ handle ticket, .invoked handle ticket ∈ table.history →
    .registered handle ticket ∈ table.history

attribute [local simp] TableEvent.registration

theorem mem_registrations : (handle.generation, ticket) ∈ table.registrations handle.slot.toNat ↔
      .registered handle ticket ∈ table.history := by
  unfold registrations
  rw [mem_filterMap]
  constructor
  · rintro ⟨event, hevent, heq⟩
    cases event with
    | invoked _ _ => simp at heq
    | registered handle' ticket' =>
      simp only [TableEvent.registration, Option.ite_none_right_eq_some, Option.some.injEq,
        Prod.mk.injEq] at heq
      obtain ⟨hslot, hgeneration, rfl⟩ := heq
      obtain rfl : handle' = handle := by
        cases handle; cases handle'
        simp only [ResourceHandle.mk.injEq]
        exact ⟨UInt32.toNat_inj.mp hslot, hgeneration⟩
      exact hevent
  · intro hevent
    exact ⟨_, hevent, by simp⟩

/-- Generations come back only after 2^32 reuses of the slot. -/
theorem Consistent.accounts (h : table.Consistent) (hreuses : ∀ slot, table.reuses slot < 2 ^ 32) :
    table.Accounts where
  created := h.created
  live := by rw [h.live, length_held]
  limit := h.limit
  once := nodup_iff_count_le_one.mp (nodup_append.mp h.tickets).1
  handles := by
    intro handle ticket ticket' hregistered hinvoked
    have hnodup : ((table.registrations handle.slot.toNat).map Prod.fst).Nodup := by
      rw [h.generations]
      apply Nodup.map_on _ nodup_range
      intro epoch hepoch epoch' hepoch' heq
      have hbound := hreuses handle.slot.toNat
      unfold reuses at hbound
      rw [mem_range] at hepoch hepoch'
      have hsize : UInt32.size = 2 ^ 32 := rfl
      have hmod := congrArg UInt32.toNat heq
      rwa [UInt32.toNat_ofNat_of_lt' (by omega), UInt32.toNat_ofNat_of_lt' (by omega)] at hmod
    have hpair := inj_on_of_nodup_map hnodup (mem_registrations.mpr hregistered)
      (mem_registrations.mpr (h.invoked _ _ hinvoked)) rfl
    exact congrArg Prod.snd hpair

/-! ## Keeping it -/

/-- Writing one slot, up to the order of the slots. -/
theorem set_perm (hslot : slots[index]? = some old) :
    ∃ others, slots.Perm (old :: others) ∧ (slots.set index new).Perm (new :: others) := by
  obtain ⟨hindex, rfl⟩ := List.getElem?_eq_some_iff.mp hslot
  exact ⟨slots.eraseIdx index, (getElem_cons_eraseIdx_perm hindex).symm,
    set_perm_cons_eraseIdx hindex new⟩

theorem held_set (hslot : slots[index]? = some old) (new : ResourceSlot R) : ∃ others : List Nat,
      (slots.filterMap fun slot => slot.resource.map Registered.ticket).Perm
        ((old.resource.map Registered.ticket).toList ++ others) ∧
      ((slots.set index new).filterMap fun slot => slot.resource.map Registered.ticket).Perm
        ((new.resource.map Registered.ticket).toList ++ others) := by
  obtain ⟨others, hold, hnew⟩ := set_perm hslot
  refine ⟨others.filterMap fun slot => slot.resource.map Registered.ticket, ?_, ?_⟩
  · refine (hold.filterMap _).trans (.of_eq ?_)
    cases hresource : old.resource <;> simp [hresource]
  · refine (hnew.filterMap _).trans (.of_eq ?_)
    cases hresource : new.resource <;> simp [hresource]

/-- The table with one more resource. -/
def filled (table : ProviderResourceTable R) (index : Nat) (generation : UInt32) (resource : R) :
    ProviderResourceTable R :=
  { table with
    slots := table.slots.set index ⟨generation, some ⟨table.created, resource⟩⟩
    live := table.live + 1
    peakLive := max table.peakLive (table.live + 1)
    created := table.created + 1
    history := table.history ++
      if index < 2 ^ 32 then [.registered ⟨.ofNat index, generation⟩ table.created] else [] }

theorem grown_freeSlot : ∃ generation, table.grown[table.freeSlot]? = some ⟨generation, none⟩ := by
  unfold grown
  split
  case isTrue hfree => exact ⟨0, by simp [hfree]⟩
  case isFalse hfree =>
    have hlt : table.freeSlot < table.slots.length := lt_of_le_of_ne findIdx_le_length hfree
    have hnone := findIdx_getElem (w := hlt)
    rw [getElem?_eq_getElem hlt]
    rcases hslot : table.slots[table.freeSlot] with ⟨generation, resource⟩
    refine ⟨generation, ?_⟩
    unfold freeSlot at hslot
    rw [hslot] at hnone
    simp only [Option.isNone_iff_eq_none] at hnone
    rw [hnone]

/-- A resource is refused at the limit, or it fills the first free slot. -/
theorem register_cases (table : ProviderResourceTable R) (resource : R) :
    table.register resource = (.error limitExceeded, table) ∨
    (∀ limit, table.limit = some limit → table.live < limit) ∧
    ∃ generation, table.grown[table.freeSlot]? = some ⟨generation, none⟩ ∧
      (table.register resource).2 =
        { table with slots := table.grown }.filled table.freeSlot generation resource := by
  by_cases hlimit : table.limit.any (· ≤ table.live)
  · exact .inl (by rw [register, if_pos hlimit])
  · refine .inr ⟨?_, ?_⟩
    · intro limit heq
      simpa [heq] using hlimit
    · obtain ⟨generation, hfree⟩ := grown_freeSlot
      refine ⟨generation, hfree, ?_⟩
      rw [register, if_neg hlimit]
      simp only [hfree, Option.map_some, Option.getD_some, filled]
      split <;> simp_all

theorem Consistent.grown (h : table.Consistent) :
    { table with slots := table.grown }.Consistent := by
  unfold ProviderResourceTable.grown
  split
  case isFalse => exact h
  case isTrue =>
    have hheld : { table with slots := table.slots ++ [(⟨0, none⟩ : ResourceSlot R)] }.held =
        table.held := by
      simp [held]
    refine ⟨h.created, ?_, h.limit, ?_, ?_, h.generations, ?_, ?_, h.invoked⟩
    · rw [hheld]; exact h.live
    · rw [hheld]; exact h.tickets
    · rw [hheld]; exact h.fresh
    · intro index hindex slot hslot
      rw [getElem?_append] at hslot
      split at hslot
      · exact h.fits index hindex slot hslot
      · -- the new slot: nothing was registered in it yet
        obtain rfl : slot = ⟨0, none⟩ := by
          have := mem_of_getElem? hslot
          simpa using this
        have hnone : table.registrations index = [] := h.unused index (by omega)
        show (0 : UInt32) = .ofNat (table.registrations index).length
        rw [hnone]
        rfl
    · intro index hindex
      apply h.unused
      simp only [length_append, length_cons, length_nil] at hindex
      omega

theorem filled_registrations :
    (table.filled index generation resource).registrations slot = table.registrations slot ++
      if index < 2 ^ 32 ∧ index = slot then [(generation, table.created)] else [] := by
  simp only [registrations, filled, filterMap_append, append_cancel_left_eq]
  by_cases hindex : index < 2 ^ 32
  · have hslot : (UInt32.ofNat index).toNat = index := UInt32.toNat_ofNat_of_lt' hindex
    rw [if_pos hindex]
    by_cases heq : index = slot
    · rw [if_pos ⟨hindex, heq⟩, ← heq]
      simp [hslot]
    · simp [hslot, heq]
  · rw [if_neg hindex, if_neg fun hand => hindex hand.1]
    rfl

theorem filled_invoked : (table.filled index generation resource).invoked = table.invoked := by
  simp only [invoked, filled, filterMap_append]
  split <;> simp [TableEvent.cleans]

private theorem filled_held (hfree : table.slots[index]? = some ⟨generation, none⟩) (resource : R) :
    (table.filled index generation resource).held.Perm (table.created :: table.held) := by
  obtain ⟨others, hold, hnew⟩ := held_set hfree ⟨generation, some ⟨table.created, resource⟩⟩
  exact hnew.trans (hold.symm.cons _)

/-- A registration takes the next number and the generation that was left in its slot. -/
theorem Consistent.filled (h : table.Consistent)
    (hfree : table.slots[index]? = some ⟨generation, none⟩)
    (hlimit : ∀ limit, table.limit = some limit → table.live < limit) (resource : R) :
    (table.filled index generation resource).Consistent := by
  have hheld := filled_held hfree resource
  have htickets : ((table.filled index generation resource).invoked ++
      (table.filled index generation resource).held).Perm
        (table.created :: (table.invoked ++ table.held)) := by
    rw [filled_invoked]
    exact (hheld.append_left _).trans perm_middle
  have hindex : index < table.slots.length := (List.getElem?_eq_some_iff.mp hfree).1
  refine ⟨?_, ?_, hlimit, ?_, ?_, ?_, ?_, ?_, ?_⟩
  · show table.created + 1 = table.cleaned + table.cleanupFailures + (table.live + 1)
    have := h.created
    omega
  · rw [hheld.length_eq]
    show table.live + 1 = table.held.length + 1
    rw [h.live]
  · rw [htickets.nodup_iff, nodup_cons]
    exact ⟨fun hmem => lt_irrefl _ (h.fresh _ hmem), h.tickets⟩
  · intro ticket hticket
    show ticket < table.created + 1
    rcases mem_cons.mp (htickets.mem_iff.mp hticket) with rfl | hold
    · exact lt_succ_self _
    · exact lt_succ_of_lt (h.fresh _ hold)
  · intro slot
    rw [filled_registrations]
    split
    case isFalse => simpa using h.generations slot
    case isTrue hslot =>
      obtain ⟨hbound, rfl⟩ := hslot
      have hgeneration : generation = .ofNat (table.registrations index).length :=
        h.fits index hbound _ hfree
      simp [h.generations, range_succ, hgeneration]
  · intro slot hslot entry hentry
    rw [filled_registrations]
    change (table.slots.set index _)[slot]? = some entry at hentry
    by_cases heq : index = slot
    · subst heq
      rw [getElem?_set_self hindex] at hentry
      injection hentry with hentry
      subst hentry
      rw [if_pos ⟨hslot, rfl⟩]
      exact ⟨_, rfl, h.fits index hslot _ hfree⟩
    · rw [getElem?_set_ne heq] at hentry
      rw [if_neg fun hand => heq hand.2, append_nil]
      exact h.fits slot hslot entry hentry
  · intro slot hslot
    change (table.slots.set index _).length ≤ slot at hslot
    rw [length_set] at hslot
    rw [filled_registrations, if_neg (by omega), append_nil]
    exact h.unused slot hslot
  · intro handle ticket hinvoked
    have hold : .invoked handle ticket ∈ table.history := by
      rcases mem_append.mp hinvoked with hold | hnew
      · exact hold
      · split at hnew <;> simp at hnew
    exact mem_append_left _ (h.invoked _ _ hold)

theorem Consistent.register (h : table.Consistent) (resource : R) :
    (table.register resource).2.Consistent := by
  rcases register_cases table resource with hrefused | ⟨hlimit, generation, hfree, hfilled⟩
  · rw [hrefused]
    exact h
  · rw [hfilled]
    exact h.grown.filled hfree hlimit resource

theorem invoking_held (haccepts : table.Accepts handle registered) (generation : UInt32) :
    table.held.Perm (registered.ticket ::
      (table.slots.set handle.slot.toNat ⟨generation, none⟩).filterMap fun slot =>
        slot.resource.map Registered.ticket) := by
  obtain ⟨others, hold, hnew⟩ := held_set haccepts ⟨generation, none⟩
  exact hold.trans (hnew.symm.cons _)

/-- A panicking cleanup leaves the counter of live resources as it was. -/
theorem Consistent.taken_live (h : table.Consistent) (haccepts : table.Accepts handle registered) :
    (table.taken handle registered).live ≠ (table.taken handle registered).occupied := by
  have hlength := (invoking_held haccepts handle.generation).length_eq
  rw [← length_held]
  show table.live ≠ _
  rw [h.live, hlength]
  exact succ_ne_self _

/-- A cleanup that returns moves the resource from the slots to the history. -/
theorem Consistent.closed (h : table.Consistent) (haccepts : table.Accepts handle registered)
    (result : Except ProviderError Unit) : (table.closed handle registered result).Consistent := by
  have hheld := invoking_held haccepts (handle.generation + 1)
  have hlength := hheld.length_eq
  have htickets : (table.invoked ++ table.held).Perm
      ((table.closed handle registered result).invoked ++
        (table.closed handle registered result).held) := by
    refine (hheld.append_left _).trans (.of_eq ?_)
    simp [ProviderResourceTable.invoked, ProviderResourceTable.closed, TableEvent.cleans, held]
  have hregistrations : ∀ slot, (table.closed handle registered result).registrations slot =
      table.registrations slot := by
    intro slot
    simp [registrations, ProviderResourceTable.closed]
  obtain ⟨earlier, hearlier, hgeneration⟩ := h.fits _ handle.slot.toNat_lt _ haccepts
  refine ⟨?_, ?_, ?_, ?_, ?_, ?_, ?_, ?_, ?_⟩
  · have hcreated := h.created
    have hlive := h.live
    show table.created = (table.cleaned + _) + (table.cleanupFailures + _) + (table.live - 1)
    rw [length_cons] at hlength
    cases result.isOk <;> simp <;> omega
  · show table.live - 1 = _
    rw [h.live, hlength]
    rfl
  · intro limit hlimit
    exact le_trans (sub_le _ _) (h.limit limit hlimit)
  · exact htickets.nodup_iff.mp h.tickets
  · intro ticket hticket
    exact h.fresh ticket (htickets.mem_iff.mpr hticket)
  · intro slot
    rw [hregistrations]
    exact h.generations slot
  · intro slot hslot entry hentry
    rw [hregistrations]
    change (table.slots.set _ _)[slot]? = some entry at hentry
    by_cases heq : handle.slot.toNat = slot
    · subst heq
      rw [getElem?_set_self (List.getElem?_eq_some_iff.mp haccepts).1] at hentry
      injection hentry with hentry
      subst hentry
      show handle.generation + 1 = _
      change handle.generation = _ at hgeneration
      rw [hearlier, hgeneration]
      simp
    · rw [getElem?_set_ne heq] at hentry
      exact h.fits slot hslot entry hentry
  · intro slot hslot
    change (table.slots.set _ _).length ≤ slot at hslot
    rw [length_set] at hslot
    rw [hregistrations]
    exact h.unused slot hslot
  · intro handle' ticket' hinvoked
    apply mem_append_left
    rcases mem_append.mp hinvoked with hold | hnew
    · exact h.invoked _ _ hold
    · simp only [mem_singleton, TableEvent.invoked.injEq] at hnew
      obtain ⟨rfl, rfl⟩ := hnew
      apply mem_registrations.mp
      rw [hearlier]
      exact mem_append_right _ (mem_singleton.mpr rfl)

/-! ## Whole calls -/

variable {cleanupOf : R → CleanupResult}

/-- No resource that a handle names panics in its cleanup. -/
def Calm (cleanupOf : R → CleanupResult) (table : ProviderResourceTable R) : Prop :=
  ∀ handle registered, table.Accepts handle registered →
    cleanupOf registered.resource ≠ .panicked

theorem Consistent.cleanupEach (h : table.Consistent) (hcalm : table.Calm cleanupOf)
    (handles : List ResourceHandle) : (cleanupEach cleanupOf handles table).2.Consistent := by
  induction handles generalizing table with
  | nil => exact h
  | cons handle handles ih =>
    -- what the rest of the loop sees is consistent, and it names no further resources
    have hrest : ∃ result after, table.cleanup cleanupOf handle = (.returned result, after) ∧
        after.Consistent ∧ after.Calm cleanupOf := by
      rcases cleanup_cases cleanupOf table handle with
        ⟨error, hrefused, -⟩ | ⟨registered, haccepts, ⟨hpanic, -⟩ | ⟨result, -, hclosed⟩⟩
      · exact ⟨_, _, hrefused, h, hcalm⟩
      · exact absurd hpanic (hcalm handle registered haccepts)
      · exact ⟨_, _, hclosed, h.closed haccepts result,
          fun handle' registered' haccepts' => hcalm handle' registered' haccepts'.of_closed⟩
    obtain ⟨result, after, hcleanup, hconsistent, hcalm'⟩ := hrest
    have hlast := ih hconsistent hcalm'
    simp only [ProviderResourceTable.cleanupEach, hcleanup]
    split <;> simp_all

/-- A loop that unwinds does so at a cleanup that panicked. -/
theorem Consistent.cleanupEach_unwound (h : table.Consistent)
    (hrun : ProviderResourceTable.cleanupEach cleanupOf handles table = (.unwound, last)) :
    last.live ≠ last.occupied := by
  induction handles generalizing table with
  | nil => simp [ProviderResourceTable.cleanupEach] at hrun
  | cons handle handles ih =>
    simp only [ProviderResourceTable.cleanupEach] at hrun
    rcases cleanup_cases cleanupOf table handle with
      ⟨error, hrefused, -⟩ | ⟨registered, haccepts, ⟨-, htaken⟩ | ⟨result, -, hclosed⟩⟩
    · rw [hrefused] at hrun
      apply ih h
      dsimp only at hrun
      split at hrun <;> simp_all
    · rw [htaken] at hrun
      injection hrun with _ hlast
      rw [← hlast]
      exact h.taken_live haccepts
    · rw [hclosed] at hrun
      apply ih (h.closed haccepts result)
      dsimp only at hrun
      split at hrun <;> simp_all

/-- A loop that returns met no cleanup that panics. -/
theorem cleanupEach_returned (hrun : cleanupEach cleanupOf handles table = (.returned errors, last))
    (hhandle : handle ∈ handles) (haccepts : table.Accepts handle registered) :
    cleanupOf registered.resource ≠ .panicked := by
  induction handles generalizing table errors last with
  | nil => cases hhandle
  | cons first handles ih =>
    simp only [cleanupEach] at hrun
    rcases cleanup_cases cleanupOf table first with
      ⟨error, hrefused, hnone⟩ | ⟨registered', haccepts', ⟨-, htaken⟩ | ⟨result, hreturned, hclosed⟩⟩
    · rw [hrefused] at hrun
      rcases mem_cons.mp hhandle with rfl | hhandle
      · exact absurd haccepts (hnone registered)
      · dsimp only at hrun
        split at hrun
        · simp at hrun
        · exact ih (by assumption) hhandle haccepts
    · rw [htaken] at hrun
      simp at hrun
    · by_cases hslot : handle.slot = first.slot
      · -- the slot was emptied before its handle was reached, by a cleanup that returned
        rw [haccepts'.unique haccepts hslot, hreturned]
        exact nofun
      · rw [hclosed] at hrun
        rcases mem_cons.mp hhandle with rfl | hhandle
        · exact absurd rfl hslot
        · dsimp only at hrun
          split at hrun
          · simp at hrun
          · exact ih (by assumption) hhandle (haccepts.closed hslot result)

private theorem mem_occupiedHandles (haccepts : table.Accepts handle registered) :
    handle ∈ table.occupiedHandles := by
  unfold occupiedHandles
  rw [mem_filterMap]
  refine ⟨(⟨handle.generation, some registered⟩, handle.slot.toNat), ?_, ?_⟩
  · exact mem_zipIdx_iff_getElem?.mpr haccepts
  · simp

/-- A call keeps the table consistent unless it invokes a cleanup that panics. -/
theorem Consistent.after (h : table.Consistent) (hcalm : ¬ table.Unwinds cleanupOf call) :
    (table.after cleanupOf call).Consistent := by
  cases call with
  | register resource => exact h.register resource
  | cleanup handle =>
    simp only [ProviderResourceTable.after]
    rcases cleanup_cases cleanupOf table handle with
      ⟨error, hrefused, -⟩ | ⟨registered, haccepts, ⟨hpanic, -⟩ | ⟨result, -, hclosed⟩⟩
    · rw [hrefused]
      exact h
    · exact absurd ⟨registered, haccepts, hpanic⟩ hcalm
    · rw [hclosed]
      exact h.closed haccepts result
  | cleanupAll =>
    apply h.cleanupEach
    intro handle registered haccepts hpanic
    exact hcalm ⟨handle, registered, haccepts, hpanic⟩

/-- A cleanup that panics leaves a live count without its resource. -/
theorem Consistent.after_unwinds (h : table.Consistent) (hunwinds : table.Unwinds cleanupOf call) :
    (table.after cleanupOf call).live ≠ (table.after cleanupOf call).occupied := by
  cases call with
  | register resource => exact hunwinds.elim
  | cleanup handle =>
    obtain ⟨registered, haccepts, hpanic⟩ := hunwinds
    simp only [ProviderResourceTable.after]
    rcases cleanup_cases cleanupOf table handle with
      ⟨error, -, hnone⟩ | ⟨registered', haccepts', ⟨-, htaken⟩ | ⟨result, hreturned, -⟩⟩
    · exact absurd haccepts (hnone registered)
    · rw [htaken]
      exact h.taken_live haccepts'
    · rw [haccepts.unique haccepts' rfl, hpanic] at hreturned
      cases hreturned
  | cleanupAll =>
    obtain ⟨handle, registered, haccepts, hpanic⟩ := hunwinds
    simp only [ProviderResourceTable.after, cleanupAll]
    rcases hrun : ProviderResourceTable.cleanupEach cleanupOf table.occupiedHandles table with
      ⟨errors | _, last⟩
    · exact absurd hpanic (cleanupEach_returned hrun (mem_occupiedHandles haccepts) haccepts)
    · exact h.cleanupEach_unwound hrun

theorem cleanup_history : table.history <+: (table.cleanup cleanupOf handle).2.history := by
  rcases cleanup_cases cleanupOf table handle with
    ⟨error, hrefused, -⟩ | ⟨registered, -, ⟨-, htaken⟩ | ⟨result, -, hclosed⟩⟩
  · simp only [hrefused, prefix_refl]
  · rw [htaken]
    exact prefix_append _ _
  · rw [hclosed]
    exact prefix_append _ _

private theorem cleanupEach_history (table : ProviderResourceTable R) :
    table.history <+: (cleanupEach cleanupOf handles table).2.history := by
  induction handles generalizing table with
  | nil => exact prefix_refl _
  | cons handle handles ih =>
    have hfirst : table.history <+: (table.cleanup cleanupOf handle).2.history := cleanup_history
    rcases hcleanup : table.cleanup cleanupOf handle with ⟨_ | _, after⟩
    all_goals
      rw [hcleanup] at hfirst
      simp only [cleanupEach, hcleanup]
    · have hrest := ih after
      split <;> simp_all <;> exact hfirst.trans hrest
    · exact hfirst

private theorem after_history : table.history <+: (table.after cleanupOf call).history := by
  cases call with
  | register resource =>
    rcases register_cases table resource with hrefused | ⟨-, generation, -, hfilled⟩
    · simp only [ProviderResourceTable.after, hrefused, prefix_refl]
    · simp only [ProviderResourceTable.after, hfilled]
      exact prefix_append _ _
  | cleanup handle => exact cleanup_history
  | cleanupAll => exact cleanupEach_history table

/-! ## Runs -/

theorem run_append (limit : Option Nat) :
    run cleanupOf limit (calls ++ more) = more.foldl (after cleanupOf) (run cleanupOf limit calls) :=
  foldl_append

private theorem foldl_history (calls : List (TableCall R)) (table : ProviderResourceTable R) :
    table.history <+: (calls.foldl (ProviderResourceTable.after cleanupOf) table).history := by
  induction calls generalizing table with
  | nil => exact prefix_refl _
  | cons call calls ih => exact (after_history).trans (ih _)

private theorem consistent_empty (limit : Option Nat) :
    ({ limit := limit } : ProviderResourceTable R).Consistent := by
  constructor <;> simp [held, invoked, registrations]

theorem run_consistent (limit : Option Nat)
    (hcalm : ∀ done call rest, calls = done ++ call :: rest →
      ¬ (run cleanupOf limit done).Unwinds cleanupOf call) :
    (run cleanupOf limit calls).Consistent := by
  induction calls using reverseRecOn with
  | nil => exact consistent_empty limit
  | append_singleton calls call ih =>
    have hbefore : (run cleanupOf limit calls).Consistent := by
      apply ih
      intro done other rest heq
      exact hcalm done other (rest ++ [call]) (by simp [heq])
    rw [run_append]
    exact hbefore.after (hcalm calls call [] rfl)

private theorem reuses_mono {limit : Option Nat} (hdone : done <+: calls) :
    (run cleanupOf limit done).reuses slot ≤ (run cleanupOf limit calls).reuses slot := by
  obtain ⟨rest, rfl⟩ := hdone
  rw [run_append]
  exact Nat.sub_le_sub_right ((foldl_history rest _).sublist.filterMap _).length_le 1

private theorem reuses_le : table.reuses slot ≤ table.history.length :=
  le_trans (sub_le _ _) (length_filterMap_le _ _)

/-- The accounts of a run hold as long as no cleanup panics, and no longer. -/
theorem accounts_iff_calm (cleanupOf : R → CleanupResult) (limit : Option Nat)
    (calls : List (TableCall R))
    (hreuses : ∀ slot, (run cleanupOf limit calls).reuses slot < 2 ^ 32) :
    (∀ done, done <+: calls → (run cleanupOf limit done).Accounts) ↔
      ∀ done call rest, calls = done ++ call :: rest →
        ¬ (run cleanupOf limit done).Unwinds cleanupOf call := by
  constructor
  · intro haccounts
    -- up to the first panic the table is consistent, so the panic is seen in the counters
    suffices hfirst : ∀ count done call rest, done.length = count → calls = done ++ call :: rest →
        ¬ (run cleanupOf limit done).Unwinds cleanupOf call from
      fun done call rest => hfirst done.length done call rest rfl
    intro count
    induction count using Nat.strongRecOn with
    | _ count ih =>
      intro done call rest hlength hcalls hunwinds
      have hbefore : (run cleanupOf limit done).Consistent := by
        apply run_consistent
        intro earlier call' rest' heq
        refine ih earlier.length ?_ earlier call' (rest' ++ call :: rest) rfl ?_
        · rw [← hlength, heq]
          simp
        · rw [hcalls, heq]
          simp
      have hafter : (run cleanupOf limit (done ++ [call])).Accounts :=
        haccounts (done ++ [call]) ⟨rest, by simp [hcalls]⟩
      rw [run_append] at hafter
      exact hbefore.after_unwinds hunwinds hafter.live
  · intro hcalm done hdone
    apply Consistent.accounts
    · apply run_consistent
      intro earlier call rest heq
      obtain ⟨others, rfl⟩ := hdone
      exact hcalm earlier call (rest ++ others) (by simp [heq])
    · intro slot
      exact lt_of_le_of_lt (reuses_mono hdone) (hreuses slot)

/-- Resources that say themselves whether they panic. -/
def cleanupFlag : Bool → CleanupResult
  | true => .panicked
  | false => .returned (.ok ())

/-- Two resources in the slot that the first one was given, one after the other. -/
def reusingCalls (panics : Bool) : List (TableCall Bool) :=
  [.register panics, .cleanup ⟨0, 0⟩, .register false, .cleanup ⟨0, 0⟩]

theorem reusingCalls_accounts :
    (∀ slot, (run cleanupFlag none (reusingCalls false)).reuses slot < 2 ^ 32) ∧
    ((∀ done, done <+: reusingCalls false → (run cleanupFlag none done).Accounts) ↔
      ∀ done call rest, reusingCalls false = done ++ call :: rest →
        ¬ (run cleanupFlag none done).Unwinds cleanupFlag call) := by
  have hreuses : ∀ slot, (run cleanupFlag none (reusingCalls false)).reuses slot < 2 ^ 32 :=
    fun slot => lt_of_le_of_lt reuses_le (by decide)
  exact ⟨hreuses, accounts_iff_calm cleanupFlag none (reusingCalls false) hreuses⟩

/-- After a panic the slot is empty and still counted as live, and the handle of the lost resource
is taken for the next resource in its slot. -/
theorem reusingCalls_confused :
    let lost := run cleanupFlag none ((reusingCalls true).take 2)
    let confused := run cleanupFlag none (reusingCalls true)
    (lost.live = 1 ∧ lost.occupied = 0) ∧
    .registered ⟨0, 0⟩ 0 ∈ confused.history ∧ .invoked ⟨0, 0⟩ 1 ∈ confused.history ∧
    ¬ lost.Accounts ∧ ¬ confused.Accounts := by
  intro lost confused
  have hlive : lost.live = 1 ∧ lost.occupied = 0 := by decide
  have hregistered : .registered ⟨0, 0⟩ 0 ∈ confused.history := by decide
  have hinvoked : .invoked ⟨0, 0⟩ 1 ∈ confused.history := by decide
  refine ⟨hlive, hregistered, hinvoked, ?_, ?_⟩
  · intro haccounts
    have hcount := haccounts.live
    omega
  · intro haccounts
    exact absurd (haccounts.handles _ _ _ hregistered hinvoked) (by decide)

end ProviderResourceTable

end RSScript.Provider
