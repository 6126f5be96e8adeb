import Duris.Lib.Run
import Duris.Persistence.Coordinator
import Duris.Proofs.CommandCodec

/-!
# The coordinator's table, fences and cache

The fences repeat what the operation table says: under every key stand the operations
that list it, in the order they were submitted. They are kept by two loops over a
command's keys, so the first section says what these loops do to one key; a valid
command lists no key twice, which is why an operation stands there once.
-/

namespace Duris.Persistence

/-! ## Keys -/

theorem criticalEntityKeyLess_trans {a b c : CriticalEntityKey}
    (hab : criticalEntityKeyLess a b = true) (hbc : criticalEntityKeyLess b c = true) :
    criticalEntityKeyLess a c = true := by
  unfold criticalEntityKeyLess at *
  split at hab <;> split at hbc <;> split <;>
    simp only [decide_eq_true_eq, BitVec.lt_def, ne_eq, not_not] at * <;> grind

theorem criticalEntityKeyLess_irrefl (a : CriticalEntityKey) :
    criticalEntityKeyLess a a = false := by
  simp [criticalEntityKeyLess]

theorem validKeys_above {keys : List CriticalEntityKey} :
    ∀ {before : CriticalEntityKey}, validKeys (some before) keys = true →
      ∀ key ∈ keys, criticalEntityKeyLess before key = true := by
  induction keys with
  | nil => intro before _ key hkey; cases hkey
  | cons head keys ih =>
      intro before h key hkey
      simp only [validKeys, Bool.and_eq_true] at h
      rcases List.mem_cons.mp hkey with rfl | hkey
      · exact h.1.2
      · exact criticalEntityKeyLess_trans h.1.2 (ih h.2 key hkey)

theorem validKeys_nodup {keys : List CriticalEntityKey} :
    ∀ {previous : Option CriticalEntityKey}, validKeys previous keys = true → keys.Nodup := by
  induction keys with
  | nil => intro previous _; exact List.nodup_nil
  | cons head keys ih =>
      intro previous h
      simp only [validKeys, Bool.and_eq_true] at h
      refine List.nodup_cons.mpr ⟨fun hmem => ?_, ih h.2⟩
      have hself := validKeys_above h.2 head hmem
      rw [criticalEntityKeyLess_irrefl] at hself
      cases hself

variable {command : CriticalCommand}

theorem criticalCommandValid_keys_nodup (h : criticalCommandValid command = true) :
    command.keys.Nodup := by
  unfold criticalCommandValid at h
  split at h
  · cases h
  · rw [Bool.and_eq_true] at h
    exact validKeys_nodup h.1

theorem criticalCommandNormalize_eq_some {normalized : CriticalCommand}
    (h : criticalCommandNormalize command = some normalized) :
    criticalCommandValid normalized = true ∧ normalized = { command with
      keys := command.keys.mergeSort fun a b => !criticalEntityKeyLess b a
      expectedRevisions := command.expectedRevisions.mergeSort
        fun a b => !criticalEntityKeyLess b.key a.key } := by
  unfold criticalCommandNormalize at h
  dsimp only at h
  split at h
  · cases h
  · split at h
    · next hvalid =>
        cases h
        exact ⟨hvalid, rfl⟩
    · cases h

/-! ## The fence loops -/

theorem addFences_apply {identity : CriticalOperationId} (hkeys : command.keys.Nodup)
    (fences : Fences) (key : CriticalEntityKey) :
    addFences fences identity command key =
      fences key ++ if key ∈ command.keys then [identity] else [] := by
  unfold addFences
  generalize command.keys = keys at hkeys
  induction keys generalizing fences with
  | nil => simp
  | cons head keys ih =>
      rw [List.nodup_cons] at hkeys
      rw [List.foldl_cons, ih _ hkeys.2, Function.update_apply]
      by_cases hhead : key = head
      · subst hhead
        simp [hkeys.1]
      · simp [hhead]

theorem removeFences_apply (fences : Fences) (identity : CriticalOperationId)
    (command : CriticalCommand) (key : CriticalEntityKey) :
    removeFences fences identity command key =
      if key ∈ command.keys then (fences key).filter (· ≠ identity) else fences key := by
  unfold removeFences
  generalize command.keys = keys
  induction keys generalizing fences with
  | nil => simp
  | cons head keys ih =>
      rw [List.foldl_cons, ih, Function.update_apply]
      by_cases hhead : key = head
      · subst hhead
        simp [List.filter_filter]
      · simp [hhead]

namespace Coordinator

/-- The operations that list a key, in the order of submission. -/
def holders (operations : List OperationState) (key : CriticalEntityKey) :
    List CriticalOperationId :=
  (operations.filter fun operation => key ∈ operation.command.keys).map OperationState.identity

theorem holders_append (operations : List OperationState) (operation : OperationState)
    (key : CriticalEntityKey) :
    holders (operations ++ [operation]) key =
      holders operations key ++
        if key ∈ operation.command.keys then [operation.identity] else [] := by
  unfold holders
  rw [List.filter_append, List.map_append]
  by_cases hkey : key ∈ operation.command.keys <;> simp [hkey]

theorem holders_erase (operations : List OperationState) (identity : CriticalOperationId)
    (key : CriticalEntityKey) :
    holders (Keyed.erase OperationState.identity operations identity) key =
      (holders operations key).filter (· ≠ identity) := by
  unfold holders Keyed.erase
  rw [List.filter_map, List.filter_filter, List.filter_filter]
  congr 1
  refine List.filter_congr fun operation _ => ?_
  simp [Bool.and_comm]

theorem holders_map {f : OperationState → OperationState}
    (hcommand : ∀ operation, (f operation).command = operation.command)
    (operations : List OperationState) (key : CriticalEntityKey) :
    holders (operations.map f) key = holders operations key := by
  unfold holders
  rw [List.filter_map, List.map_map]
  have hpredicate : ((fun operation : OperationState =>
      decide (key ∈ operation.command.keys)) ∘ f) =
      fun operation => decide (key ∈ operation.command.keys) := by
    funext operation
    rw [Function.comp_apply, hcommand]
  rw [hpredicate]
  refine List.map_congr_left fun operation _ => ?_
  simp [OperationState.identity, hcommand]

theorem mem_holders {operations : List OperationState} {key : CriticalEntityKey}
    {identity : CriticalOperationId} :
    identity ∈ holders operations key ↔
      ∃ operation ∈ operations, key ∈ operation.command.keys ∧ operation.identity = identity := by
  simp [holders, and_assoc]

/-! ## The cache -/

def cachedSum (cache : List CompletedState) : Nat := (cache.map CompletedState.encodedSize).sum

theorem evictFor_spec {size : Nat} (hsize : size ≤ criticalCoordinatorCompletedCacheBytes)
    (cache : List CompletedState) (hunique : (cache.map CompletedState.identity).Nodup) :
    ∃ kept, kept <:+ cache ∧
      evictFor size (cache.map CompletedState.identity) cache (cachedSum cache) =
        (kept.map CompletedState.identity, kept, cachedSum kept) ∧
      kept.length < criticalCoordinatorCompletedCacheMax ∧
      cachedSum kept + size ≤ criticalCoordinatorCompletedCacheBytes := by
  induction cache with
  | nil => exact ⟨[], List.suffix_refl _, rfl, by decide, by simpa [cachedSum] using hsize⟩
  | cons head cache ih =>
      rw [List.map_cons, List.nodup_cons] at hunique
      have hsum : cachedSum (head :: cache) = head.encodedSize + cachedSum cache := by
        simp [cachedSum]
      rw [List.map_cons, evictFor]
      split
      · have hfound : Keyed.lookup CompletedState.identity (head :: cache) head.identity =
            some head := by simp [Keyed.lookup]
        have hrest : Keyed.erase CompletedState.identity (head :: cache) head.identity =
            cache := by
          have habsent : ∀ other ∈ cache, other.identity ≠ head.identity :=
            fun other hother heq => hunique.1 (heq ▸ List.mem_map_of_mem hother)
          rw [Keyed.erase, List.filter_cons_of_neg (by simp), ← Keyed.erase,
            Keyed.erase_of_absent habsent]
        obtain ⟨kept, hsuffix, hevict, hroom⟩ := ih hunique.2
        refine ⟨kept, hsuffix.trans (List.suffix_cons head cache), ?_, hroom⟩
        rw [hfound]
        dsimp only
        rw [hrest, hsum, Nat.add_sub_cancel_left]
        exact hevict
      · next hfits =>
          simp only [not_or, Nat.not_le, Nat.not_lt] at hfits
          exact ⟨head :: cache, List.suffix_refl _, rfl, hfits.1, by omega⟩

/-- The cache and its order list the same identities, once each, within the limits. -/
structure CacheInv (s : Coordinator) : Prop where
  order : s.completedOrder = s.completedCache.map CompletedState.identity
  unique : (s.completedCache.map CompletedState.identity).Nodup
  bytes : s.completedCacheBytes = cachedSum s.completedCache
  sizes : ∀ completed ∈ s.completedCache, criticalCommandValid completed.command = true ∧
    completed.encodedSize = (encodeFields completed.command).length
  bound : s.completedCacheBytes ≤ criticalCoordinatorCompletedCacheBytes
  count : s.completedCache.length ≤ criticalCoordinatorCompletedCacheMax

theorem rememberCompleted_rest (s : Coordinator) (command : CriticalCommand)
    (completion : CriticalCompletion) :
    s.rememberCompleted command completion = { s with
      completedCache := (s.rememberCompleted command completion).completedCache
      completedOrder := (s.rememberCompleted command completion).completedOrder
      completedCacheBytes :=
        (s.rememberCompleted command completion).completedCacheBytes } := by
  unfold rememberCompleted
  split
  · rfl
  · split <;> rfl

structure Remembered (s s' : Coordinator) (command : CriticalCommand) : Prop where
  cache : CacheInv s'
  fresh : ∀ completed ∈ s'.completedCache, completed ∈ s.completedCache ∨
    completed.command = command

variable {s : Coordinator} {operation : OperationState}

theorem rememberCompleted_spec (hcache : CacheInv s) {command : CriticalCommand}
    (hvalid : criticalCommandValid command = true)
    (hnew : ∀ completed ∈ s.completedCache, completed.identity ≠ command.operationId)
    (completion : CriticalCompletion) :
    Remembered s (s.rememberCompleted command completion) command := by
  unfold rememberCompleted
  rw [criticalCommandEncode_of_valid hvalid]
  dsimp only
  split
  · exact ⟨hcache, fun completed h => .inl h⟩
  · next hsize =>
      rw [Nat.not_lt] at hsize
      obtain ⟨kept, hsuffix, hevict, hcount, hbytes⟩ :=
        evictFor_spec hsize s.completedCache hcache.unique
      rw [hcache.order, hcache.bytes, hevict]
      have habsent : ∀ completed ∈ kept, completed.identity ≠ command.operationId :=
        fun completed h => hnew completed (hsuffix.subset h)
      rw [Keyed.lookup_eq_none.mpr habsent]
      refine ⟨⟨?_, ?_, ?_, ?_, ?_, ?_⟩, ?_⟩
      · simp [CompletedState.identity]
      · simp only [Option.isSome_none, Bool.false_eq_true, if_false, List.map_append,
          List.map_cons, List.map_nil]
        rw [List.nodup_append]
        refine ⟨hcache.unique.sublist (List.Sublist.map _ hsuffix.sublist),
          List.nodup_singleton _, ?_⟩
        intro a ha b hb
        obtain ⟨completed, hcompleted, rfl⟩ := List.mem_map.mp ha
        rw [List.mem_singleton.mp hb]
        exact habsent completed hcompleted
      · simp [cachedSum]
      · intro completed hcompleted
        simp only [Option.isSome_none, Bool.false_eq_true, if_false, List.mem_append,
          List.mem_singleton] at hcompleted
        rcases hcompleted with hcompleted | rfl
        · exact hcache.sizes completed (hsuffix.subset hcompleted)
        · exact ⟨hvalid, rfl⟩
      · exact hbytes
      · simp only [Option.isSome_none, Bool.false_eq_true, if_false, List.length_append,
          List.length_singleton]
        omega
      · intro completed hcompleted
        simp only [Option.isSome_none, Bool.false_eq_true, if_false, List.mem_append,
          List.mem_singleton] at hcompleted
        rcases hcompleted with hcompleted | rfl
        · exact .inl (hsuffix.subset hcompleted)
        · exact .inr rfl

/-! ## The table -/

/-- What the table, the fences and the cache agree on between two holds of the mutex. -/
structure TableInv (s : Coordinator) : Prop where
  fences : ∀ key, s.fences key = holders s.operations key
  unique : (s.operations.map OperationState.identity).Nodup
  valid : ∀ operation ∈ s.operations, criticalCommandValid operation.command = true
  bound : retainedSum s.operations ≤ criticalCoordinatorMaxBytes
  count : s.operations.length ≤ criticalCoordinatorMaxOperations
  disjoint : ∀ operation ∈ s.operations, ∀ completed ∈ s.completedCache,
    operation.identity ≠ completed.identity
  cache : CacheInv s

theorem TableInv.same {s' : Coordinator} (h : TableInv s)
    (hoperations : s'.operations = s.operations) (hfences : s'.fences = s.fences)
    (hcache : s'.completedCache = s.completedCache) (horder : s'.completedOrder = s.completedOrder)
    (hbytes : s'.completedCacheBytes = s.completedCacheBytes) : TableInv s' := by
  refine ⟨?_, ?_, ?_, ?_, ?_, ?_, ⟨?_, ?_, ?_, ?_, ?_, ?_⟩⟩
  · rw [hfences, hoperations]; exact h.fences
  · rw [hoperations]; exact h.unique
  · rw [hoperations]; exact h.valid
  · rw [hoperations]; exact h.bound
  · rw [hoperations]; exact h.count
  · rw [hoperations, hcache]; exact h.disjoint
  · rw [horder, hcache]; exact h.cache.order
  · rw [hcache]; exact h.cache.unique
  · rw [hbytes, hcache]; exact h.cache.bytes
  · rw [hcache]; exact h.cache.sizes
  · rw [hbytes]; exact h.cache.bound
  · rw [hcache]; exact h.cache.count

theorem removeFences_holders (h : TableInv s) (hoperation : operation ∈ s.operations)
    (key : CriticalEntityKey) :
    removeFences s.fences operation.identity operation.command key =
      holders (Keyed.erase OperationState.identity s.operations operation.identity) key := by
  rw [removeFences_apply, holders_erase, h.fences]
  split
  · rfl
  · next hkey =>
      refine (List.filter_eq_self.mpr fun identity hidentity => ?_).symm
      rw [decide_eq_true_eq]
      rintro rfl
      obtain ⟨other, hother, hlists, hsame⟩ := mem_holders.mp hidentity
      rw [Keyed.eq_of_key_eq h.unique hother hoperation hsame] at hlists
      exact hkey hlists

theorem TableInv.erase (h : TableInv s) (hoperation : operation ∈ s.operations) :
    TableInv (s.eraseOperation operation) := by
  have hsum := Keyed.sum_erase h.unique hoperation OperationState.retainedBytes
  have hbound := h.bound
  have hcount := h.count
  have hle := @Keyed.erase_length_le _ _ _ OperationState.identity s.operations operation.identity
  refine ⟨removeFences_holders h hoperation, Keyed.erase_unique h.unique _, ?_, ?_, ?_, ?_,
    ⟨h.cache.order, h.cache.unique, h.cache.bytes, h.cache.sizes, h.cache.bound, h.cache.count⟩⟩
  · exact fun other hother => h.valid other (Keyed.mem_erase.mp hother).1
  · simp only [eraseOperation, retainedSum] at hbound ⊢
    omega
  · simp only [eraseOperation]
    omega
  · exact fun other hother => h.disjoint other (Keyed.mem_erase.mp hother).1

theorem TableInv.complete (h : TableInv s) (hoperation : operation ∈ s.operations)
    (completion : CriticalCompletion) :
    TableInv ((s.rememberCompleted operation.command completion).eraseOperation operation) := by
  have hremembered := rememberCompleted_spec h.cache (h.valid operation hoperation)
    (fun completed hcompleted heq => h.disjoint operation hoperation completed hcompleted heq.symm)
    completion
  obtain ⟨hcache, hfresh⟩ := hremembered
  have hrest := rememberCompleted_rest s operation.command completion
  have hoperations : (s.rememberCompleted operation.command completion).operations =
      s.operations := by rw [hrest]
  have hfences : (s.rememberCompleted operation.command completion).fences = s.fences := by
    rw [hrest]
  have herased := h.erase hoperation
  refine ⟨?_, ?_, ?_, ?_, ?_, ?_,
    ⟨hcache.order, hcache.unique, hcache.bytes, hcache.sizes, hcache.bound, hcache.count⟩⟩
  · simp only [eraseOperation, hoperations, hfences]
    exact herased.fences
  · simp only [eraseOperation, hoperations]
    exact herased.unique
  · simp only [eraseOperation, hoperations]
    exact herased.valid
  · simp only [eraseOperation, hoperations]
    exact herased.bound
  · simp only [eraseOperation, hoperations]
    exact herased.count
  · simp only [eraseOperation, hoperations]
    intro other hother completed hcompleted
    rcases hfresh completed hcompleted with hold | hnew
    · exact herased.disjoint other hother completed hold
    · rw [CompletedState.identity, hnew]
      exact (Keyed.mem_erase.mp hother).2

theorem TableInv.update {s' : Coordinator} (h : TableInv s) {f : OperationState → OperationState}
    (hcommand : ∀ operation, (f operation).command = operation.command)
    (hretained : ∀ operation, (f operation).retainedBytes = operation.retainedBytes)
    (hs' : s' = { s with operations := s.operations.map f }) : TableInv s' := by
  subst hs'
  have hidentity : ∀ operation, (f operation).identity = operation.identity :=
    fun operation => by simp only [OperationState.identity, hcommand]
  refine ⟨?_, ?_, ?_, ?_, ?_, ?_,
    ⟨h.cache.order, h.cache.unique, h.cache.bytes, h.cache.sizes, h.cache.bound, h.cache.count⟩⟩
  · intro key
    rw [holders_map hcommand]
    exact h.fences key
  · rw [List.map_map, show OperationState.identity ∘ f = OperationState.identity from
      funext hidentity]
    exact h.unique
  · intro operation hoperation
    obtain ⟨old, hold, rfl⟩ := List.mem_map.mp hoperation
    rw [hcommand]
    exact h.valid old hold
  · unfold retainedSum
    rw [List.map_map, show OperationState.retainedBytes ∘ f = OperationState.retainedBytes from
      funext hretained]
    exact h.bound
  · rw [List.length_map]
    exact h.count
  · intro operation hoperation
    obtain ⟨old, hold, rfl⟩ := List.mem_map.mp hoperation
    rw [hidentity]
    exact h.disjoint old hold

theorem TableInv.reserve (h : TableInv s) {command : CriticalCommand}
    (hvalid : criticalCommandValid command = true)
    (hcompleted : s.findCompleted command.operationId = none)
    (hoperation : s.findOperation command.operationId = none)
    (hcount : s.operations.length < criticalCoordinatorMaxOperations) {size : Nat}
    (hsize : retainedSum s.operations + size ≤ criticalCoordinatorMaxBytes)
    (retainUntilPublication : Bool) :
    TableInv (s.reserveLocked command size retainUntilPublication) := by
  have hnotOperation := Keyed.lookup_eq_none.mp hoperation
  have hnotCompleted := Keyed.lookup_eq_none.mp hcompleted
  refine ⟨?_, ?_, ?_, ?_, ?_, ?_,
    ⟨h.cache.order, h.cache.unique, h.cache.bytes, h.cache.sizes, h.cache.bound, h.cache.count⟩⟩
  · intro key
    simp only [reserveLocked, updateDepth]
    rw [addFences_apply (criticalCommandValid_keys_nodup hvalid), holders_append, h.fences]
    rfl
  · simp only [reserveLocked, updateDepth, List.map_append, List.map_cons, List.map_nil]
    rw [List.nodup_append]
    refine ⟨h.unique, List.nodup_singleton _, ?_⟩
    intro a ha b hb
    obtain ⟨operation, hmem, rfl⟩ := List.mem_map.mp ha
    rw [List.mem_singleton.mp hb]
    exact hnotOperation operation hmem
  · intro operation hmem
    simp only [reserveLocked, updateDepth, List.mem_append, List.mem_singleton] at hmem
    rcases hmem with hmem | rfl
    · exact h.valid operation hmem
    · exact hvalid
  · simpa [reserveLocked, updateDepth, retainedSum] using hsize
  · simp only [reserveLocked, updateDepth, List.length_append, List.length_singleton]
    omega
  · intro operation hmem completed hcached
    simp only [reserveLocked, updateDepth, List.mem_append, List.mem_singleton] at hmem hcached
    rcases hmem with hmem | rfl
    · exact h.disjoint operation hmem completed hcached
    · exact fun heq => hnotCompleted completed hcached heq.symm

/-! ## The steps -/

/-- The invariant between two steps: the depth counter is up to date as well. -/
structure Inv (s : Coordinator) : Prop where
  table : TableInv s
  retained : s.retainedBytes = retainedSum s.operations

theorem TableInv.updateDepth (h : TableInv s) : Inv s.updateDepth :=
  ⟨h.same rfl rfl rfl rfl rfl, rfl⟩

theorem submitCommand_inv (h : Inv s) (command : CriticalCommand) (retainUntilPublication : Bool)
    (now : BitVec 64) : Inv (s.submitCommand command retainUntilPublication now).2 := by
  unfold submitCommand
  split
  · exact h
  next normalized hnormalized =>
  obtain ⟨hvalid, -⟩ := criticalCommandNormalize_eq_some hnormalized
  split
  · exact h
  split
  · split <;> exact h
  next hcompleted =>
  split
  · next found hfound =>
      split
      · refine ⟨h.table.update (f := fun operation =>
            if operation.identity = normalized.operationId then
              { operation with attachments := operation.attachments + 1 }
            else operation) ?_ ?_ rfl, ?_⟩
        · intro operation; split <;> rfl
        · intro operation; split <;> rfl
        · have hsame : retainedSum (s.operations.map fun operation =>
              if operation.identity = normalized.operationId then
                { operation with attachments := operation.attachments + 1 }
              else operation) = retainedSum s.operations := by
            unfold retainedSum
            rw [List.map_map]
            congr 1
            refine List.map_congr_left fun operation _ => ?_
            rw [Function.comp_apply]
            split <;> rfl
          exact h.retained.trans hsame.symm
      · exact h
  · next hoperation =>
      rw [criticalCommandEncode_of_valid hvalid]
      dsimp only
      split
      · exact h
      · next hroom =>
          simp only [not_or, Nat.not_le, Nat.not_lt] at hroom
          have hretained := h.retained
          have hbound := h.table.bound
          refine ⟨h.table.reserve hvalid hcompleted hoperation hroom.1 (by omega)
            retainUntilPublication, rfl⟩

theorem queueOnWriter_inv (h : Inv s) (index : Nat) (accepts : Bool) :
    Inv (s.queueOnWriter index accepts).2 := by
  unfold queueOnWriter
  split
  · exact h
  dsimp only
  split
  · exact ⟨h.table.same rfl rfl rfl rfl rfl, h.retained⟩
  · have htable : TableInv { s with
        submitting := s.submitting.eraseIdx index
        writerSequence := s.writerSequence + 1 } := h.table.same rfl rfl rfl rfl rfl
    split
    · next found hfound =>
        exact (htable.erase (Keyed.mem_of_lookup hfound).1).updateDepth
    · exact htable.updateDepth

theorem execute_inv (h : Inv s) (applied : CriticalApplyResult) : Inv (s.execute applied) := by
  unfold execute
  split
  · exact h
  split
  · exact h
  split
  · unfold tryEnqueue
    split <;> exact ⟨h.table.same rfl rfl rfl rfl rfl, h.retained⟩
  · exact ⟨h.table.same rfl rfl rfl rfl rfl, h.retained⟩

theorem TableInv.hold (h : TableInv s) (operation : OperationState)
    (completion : CriticalCompletion) : TableInv (s.holdForPublication operation completion) := by
  refine h.update ?_ ?_ rfl
  · intro other; split <;> rfl
  · intro other; split <;> rfl

theorem publish_table (results : List CriticalCompletion) :
    ∀ (capacity : Nat) {s : Coordinator}, TableInv s →
      TableInv (publish results capacity s).2 := by
  induction results with
  | nil => intro capacity s h; exact h
  | cons completion results ih =>
      intro capacity s h
      cases capacity with
      | zero => exact h
      | succ capacity =>
          have hpopped : TableInv { s with executionResults := results } :=
            h.same rfl rfl rfl rfl rfl
          unfold publish
          dsimp only
          split
          · exact ih _ hpopped
          · next operation hfound =>
              split
              · exact ih _ hpopped
              · have hlogged : TableInv { s with
                    executionResults := results
                    delivered := s.delivered ++ [completion] } := h.same rfl rfl rfl rfl rfl
                split
                · exact ih capacity (hlogged.hold operation completion)
                · exact ih capacity (hlogged.complete (Keyed.mem_of_lookup hfound).1 completion)

theorem acknowledgePublication_inv (h : Inv s) (identity : CriticalOperationId) :
    Inv (s.acknowledgePublication identity).2 := by
  unfold acknowledgePublication
  split
  · exact h
  · next operation hfound =>
      split
      · exact h
      · next completion _ =>
          exact (h.table.complete (Keyed.mem_of_lookup hfound).1 completion).updateDepth

theorem cleared_inv (s : Coordinator) : Inv s.cleared :=
  ⟨⟨fun key => rfl, List.nodup_nil, by simp [cleared], Nat.zero_le _, Nat.zero_le _,
    by simp [cleared],
    ⟨rfl, List.nodup_nil, rfl, by simp [cleared], Nat.zero_le _, Nat.zero_le _⟩⟩, rfl⟩

theorem step_inv (s : Coordinator) (e : Event) (h : Inv s) : Inv (s.step e) := by
  cases e with
  | init =>
      simp only [step, init]
      split
      · exact h
      · exact ⟨(cleared_inv s).table.same rfl rfl rfl rfl rfl, rfl⟩
  | shutdown =>
      simp only [step, shutdown]
      split
      · exact h
      · exact cleared_inv s
  | submit command retainUntilPublication now =>
      exact submitCommand_inv h command retainUntilPublication now
  | queueOnWriter index accepts => exact queueOnWriter_inv h index accepts
  | execute applied => exact execute_inv h applied
  | pulse capacity =>
      exact (publish_table s.executionResults capacity h.table).updateDepth
  | acknowledgePublication identity => exact acknowledgePublication_inv h identity
  | quiesce => exact ⟨h.table.same rfl rfl rfl rfl rfl, h.retained⟩
  | resume =>
      simp only [step, resume]
      split
      · exact ⟨h.table.same rfl rfl rfl rfl rfl, h.retained⟩
      · exact h

theorem inv_initial : Inv {} :=
  ⟨⟨fun key => rfl, List.nodup_nil, by simp, Nat.zero_le _, Nat.zero_le _, by simp,
    ⟨rfl, List.nodup_nil, rfl, by simp, Nat.zero_le _, Nat.zero_le _⟩⟩, rfl⟩

theorem run_inv (events : List Event) : Inv (run step {} events) :=
  run_invariant step_inv events inv_initial

theorem TableInv.isFenced (h : TableInv s) (key : CriticalEntityKey) :
    s.isFenced key = (holders s.operations key).head? := by
  unfold Coordinator.isFenced
  rw [h.fences]
  cases hholders : holders s.operations key with
  | nil => rfl
  | cons identity rest =>
      obtain ⟨operation, hoperation, -, rfl⟩ :=
        mem_holders.mp (hholders ▸ List.mem_cons_self : identity ∈ holders s.operations key)
      dsimp only
      rw [findOperation, Keyed.lookup_of_mem h.unique hoperation]
      rfl

/-- In every reachable state: the fences are the table read by key; table and cache
share no identity; the order lists the cache once each; and the limits hold. -/
theorem coordinator_state_consistent (events : List Event) :
    (∀ key, (run step {} events).fences key =
      ((run step {} events).operations.filter fun operation =>
        key ∈ operation.command.keys).map OperationState.identity) ∧
    (∀ key, ((run step {} events).isFenced key).isSome = true ↔
      ∃ operation ∈ (run step {} events).operations, key ∈ operation.command.keys) ∧
    (∀ operation ∈ (run step {} events).operations,
      ∀ completed ∈ (run step {} events).completedCache,
        operation.identity ≠ completed.identity) ∧
    ((run step {} events).completedOrder.Nodup ∧
      ((run step {} events).completedCache.map CompletedState.identity).Nodup ∧
      ∀ identity, identity ∈ (run step {} events).completedOrder ↔
        ∃ completed ∈ (run step {} events).completedCache, completed.identity = identity) ∧
    ((run step {} events).completedCacheBytes =
        ((run step {} events).completedCache.map fun completed =>
          (encodeFields completed.command).length).sum ∧
      (∀ completed ∈ (run step {} events).completedCache,
        criticalCommandEncode completed.command = .ok (encodeFields completed.command)) ∧
      (run step {} events).completedCacheBytes ≤ criticalCoordinatorCompletedCacheBytes ∧
      (run step {} events).completedCache.length ≤ criticalCoordinatorCompletedCacheMax) ∧
    ((run step {} events).operations.map OperationState.retainedBytes).sum ≤
      criticalCoordinatorMaxBytes := by
  have htable := (run_inv events).table
  generalize run step {} events = s at htable
  refine ⟨htable.fences, ?_, htable.disjoint, ⟨?_, htable.cache.unique, ?_⟩,
    ⟨?_, ?_, htable.cache.bound, htable.cache.count⟩, htable.bound⟩
  · intro key
    rw [htable.isFenced]
    constructor
    · intro h
      obtain ⟨identity, hhead⟩ := Option.isSome_iff_exists.mp h
      obtain ⟨operation, hoperation, hkey, -⟩ := mem_holders.mp (List.mem_of_head? hhead)
      exact ⟨operation, hoperation, hkey⟩
    · rintro ⟨operation, hoperation, hkey⟩
      have hmem : operation.identity ∈ holders s.operations key :=
        mem_holders.mpr ⟨operation, hoperation, hkey, rfl⟩
      cases hholders : holders s.operations key with
      | nil => rw [hholders] at hmem; cases hmem
      | cons identity rest => rfl
  · rw [htable.cache.order]
    exact htable.cache.unique
  · intro identity
    rw [htable.cache.order, List.mem_map]
  · rw [htable.cache.bytes]
    unfold cachedSum
    congr 1
    exact List.map_congr_left fun completed hcompleted =>
      (htable.cache.sizes completed hcompleted).2
  · exact fun completed hcompleted =>
      criticalCommandEncode_of_valid (htable.cache.sizes completed hcompleted).1

end Coordinator

end Duris.Persistence
