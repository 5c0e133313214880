import Threadline.LockTable
import Threadline.RowContract
import Mathlib.Tactic.NormNum
import Mathlib.Tactic.Positivity

/-!
# Entity locks

A transaction locks every entity it writes, in one order. The locks are advisory
ones, whose number is cut from a digest of the key, so that two entities can share a
lock. An order of the keys is then no order of the locks.
-/

open PyText PyJson PySorted PyExcept LockTable

namespace Threadline

/-! ## Keys -/

/-- `ENTITY_RANK`. -/
def entityRank : EntityType → ℕ
  | .order => 0
  | .fee => 1
  | .payment => 2
  | .payout => 3
  | .refund => 4
  | .settlementLine => 5

/-- A key that `normalize_entity_key` returns. -/
structure EntityKey where
  entityType : EntityType
  sourceId : Text
  canonical : Trimmed sourceId

instance : DecidableEq EntityKey := fun a b =>
  decidable_of_iff (a.entityType = b.entityType ∧ a.sourceId = b.sourceId) (by
    cases a
    cases b
    simp)

inductive EntityKeyError
  /-- `'...' is not a valid EntityType`. -/
  | entityType (text : Text)
  /-- `source_id must be a non-empty canonical string`. -/
  | sourceId
  deriving DecidableEq

instance (s : Text) : Decidable (Trimmed s) := inferInstanceAs (Decidable (s ≠ [] ∧ s = strip s))

/-- A member of `EntityType`, or the one with a value. -/
def normalizedType (entityType : EntityName) : Except EntityKeyError EntityType :=
  match entityType with
  | .member entityType => .ok entityType
  | .name text =>
    match EntityType.all.find? fun member => member.value = text with
    | some entityType => .ok entityType
    | none => .error (.entityType text)

/-- `normalize_entity_key`. -/
def normalizeEntityKey (key : EntityName × Text) : Except EntityKeyError EntityKey := do
  let entityType ← normalizedType key.1
  if canonical : Trimmed key.2 then .ok ⟨entityType, key.2, canonical⟩ else .error .sourceId

/-- `entity_sort_key`. -/
def EntityKey.sortKey (key : EntityKey) : ℕ ×ₗ Text := toLex (entityRank key.entityType, key.sourceId)

/-- `ordered_entity_keys`. -/
def orderedEntityKeys (keys : List (EntityName × Text)) : Except EntityKeyError (List EntityKey) := do
  let normalized ← keys.mapM normalizeEntityKey
  .ok (sortedBy EntityKey.sortKey normalized.dedup)

theorem entityRank_injective : Function.Injective entityRank := by
  intro a b h
  cases a <;> cases b <;> first | rfl | cases h

theorem EntityKey.sortKey_injective : Function.Injective EntityKey.sortKey := by
  rintro ⟨a, s, hs⟩ ⟨b, t, ht⟩ h
  obtain ⟨hrank, rfl⟩ := Prod.mk.inj (toLex.injective h)
  obtain rfl := entityRank_injective hrank
  rfl

/-- The keys in their order. -/
instance : LinearOrder EntityKey := LinearOrder.lift' EntityKey.sortKey EntityKey.sortKey_injective

theorem EntityKey.lt_iff {a b : EntityKey} : a < b ↔ a.sortKey < b.sortKey := Iff.rfl

theorem sourceId_of_normalizeEntityKey {raw : EntityName × Text} {key : EntityKey}
    (h : normalizeEntityKey raw = .ok key) : key.sourceId = raw.2 := by
  unfold normalizeEntityKey at h
  obtain ⟨entityType, -, h⟩ := bind_eq_ok.mp h
  split_ifs at h
  obtain rfl := Except.ok.inj h
  rfl

theorem sortedBy_sortKey_lt (keys : List EntityKey) :
    (sortedBy EntityKey.sortKey keys.dedup).Pairwise (· < ·) := by
  have hnodup := sortedBy_nodup EntityKey.sortKey keys.nodup_dedup
  refine (sortedBy_pairwise EntityKey.sortKey keys.dedup).imp₂ (fun a b hle hne => ?_) hnodup
  exact lt_of_le_of_ne hle hne

/-- What `ordered_entity_keys` returns: each key once, in order. -/
theorem orderedEntityKeys_eq_ok {keys : List (EntityName × Text)} {ordered : List EntityKey} :
    orderedEntityKeys keys = .ok ordered ↔ ordered.Pairwise (· < ·) ∧
      (∀ raw ∈ keys, ∃ key ∈ ordered, normalizeEntityKey raw = .ok key) ∧
      ∀ key ∈ ordered, ∃ raw ∈ keys, normalizeEntityKey raw = .ok key := by
  have hmem : ∀ (normalized : List EntityKey) key,
      key ∈ sortedBy EntityKey.sortKey normalized.dedup ↔ key ∈ normalized := fun _ _ => by
    rw [mem_sortedBy, List.mem_dedup]
  unfold orderedEntityKeys
  rw [bind_eq_ok]
  constructor
  · rintro ⟨normalized, hnormalized, h⟩
    obtain rfl := Except.ok.inj h
    refine ⟨sortedBy_sortKey_lt normalized, fun raw hraw => ?_, fun key hkey => ?_⟩
    · obtain ⟨key, hkey⟩ := exists_of_mapM_eq_ok hnormalized hraw
      exact ⟨key, (hmem normalized key).mpr ((mem_of_mapM_eq_ok hnormalized).mpr ⟨raw, hraw, hkey⟩),
        hkey⟩
    · exact (mem_of_mapM_eq_ok hnormalized).mp ((hmem normalized key).mp hkey)
  · rintro ⟨hsorted, hkeys, hordered⟩
    obtain ⟨normalized, hnormalized⟩ := exists_mapM_eq_ok fun raw hraw => by
      obtain ⟨key, -, hok⟩ := hkeys raw hraw
      exact ⟨key, hok⟩
    have hsame : ∀ key, key ∈ sortedBy EntityKey.sortKey normalized.dedup ↔ key ∈ ordered := by
      intro key
      rw [hmem, mem_of_mapM_eq_ok hnormalized]
      refine ⟨fun ⟨raw, hraw, hkey⟩ => ?_, fun hkey => hordered key hkey⟩
      obtain ⟨key', hkey', hok⟩ := hkeys raw hraw
      obtain rfl := Except.ok.inj (hok.symm.trans hkey)
      exact hkey'
    have hnodup : ordered.Nodup := hsorted.imp fun hlt => hlt.ne
    have hperm := (List.perm_ext_iff_of_nodup
      (sortedBy_nodup EntityKey.sortKey normalized.nodup_dedup) hnodup).mpr hsame
    refine ⟨normalized, hnormalized, congrArg Except.ok ?_⟩
    refine List.Perm.eq_of_pairwise ?_ (sortedBy_sortKey_lt normalized) hsorted hperm
    exact fun a b _ _ hab hba => absurd (hab.trans hba) (lt_irrefl a)

/-! ## Lock numbers -/

/-- `int.from_bytes(..., byteorder="big", signed=True)`. -/
def signedFromBytes (bytes : List UInt8) : ℤ :=
  let n : ℕ := bytes.foldl (fun n byte => n * 256 + byte.toNat) 0
  if 2 * n < 256 ^ bytes.length then n else n - 256 ^ bytes.length

/-- `_entity_lock_number`, which fails on a source ID without UTF-8 bytes. -/
def entityLockNumber (digest : Bytes → Bytes) (key : EntityKey) : Option ℤ :=
  (encodeUtf8 (render (.arr [.str key.entityType.value, .str key.sourceId]))).map fun encoded =>
    signedFromBytes ((digest encoded).data.toList.take 4)

/-- An advisory lock of the server: by one number, or by a pair, which are never the same lock. -/
inductive AdvisoryLock
  | single (key : ℤ)
  | pair (classId objectId : ℤ)
  deriving DecidableEq

/-- `FINANCIAL_STATE_LOCK`. -/
def financialStateLock : AdvisoryLock := .single 740031

/-- `ENTITY_LOCK_NAMESPACE`. -/
def entityLockNamespace : ℤ := 740033

/-- The lock of an entity. -/
def entityLock? (digest : Bytes → Bytes) (key : EntityKey) : Option AdvisoryLock :=
  (entityLockNumber digest key).map (.pair entityLockNamespace)

/-- The locks that the loop takes for keys in order, up to a key that it cannot encode, where it
raises. -/
def entityLocks (digest : Bytes → Bytes) : List EntityKey → List AdvisoryLock
  | [] => []
  | key :: keys =>
    match entityLock? digest key with
    | none => []
    | some lock => lock :: entityLocks digest keys

/-- The locks that `acquire_entity_locks` takes, in order. -/
def acquiredLocks (digest : Bytes → Bytes) (keys : List (EntityName × Text)) : List AdvisoryLock :=
  match orderedEntityKeys keys with
  | .ok ordered => entityLocks digest ordered
  | .error _ => []

theorem signedFromBytes_range (bytes : List UInt8) :
    -(256 ^ bytes.length : ℤ) ≤ 2 * signedFromBytes bytes ∧
      2 * signedFromBytes bytes < 256 ^ bytes.length := by
  have hlt : bytes.foldl (fun n byte => n * 256 + byte.toNat) 0 < 256 ^ bytes.length := by
    induction bytes using List.reverseRecOn with
    | nil => simp
    | append_singleton bytes byte ih =>
      rw [List.foldl_append, List.foldl_cons, List.foldl_nil, List.length_append, List.length_singleton,
        pow_succ]
      have hbyte := byte.toNat_lt
      omega
  unfold signedFromBytes
  simp only
  split_ifs with h
  · constructor
    · have hpos : (0 : ℤ) ≤ 256 ^ bytes.length := by positivity
      omega
    · exact_mod_cast h
  · have hlt' : ((bytes.foldl (fun n byte => n * 256 + byte.toNat) 0 : ℕ) : ℤ) < 256 ^ bytes.length := by
      exact_mod_cast hlt
    have hle : (256 ^ bytes.length : ℤ) ≤
        2 * ((bytes.foldl (fun n byte => n * 256 + byte.toNat) 0 : ℕ) : ℤ) := by
      exact_mod_cast not_lt.mp h
    constructor <;> omega

/-- The number fits the `INTEGER` that the server's function takes. -/
theorem entityLockNumber_range {digest : Bytes → Bytes} {key : EntityKey} {number : ℤ}
    (h : entityLockNumber digest key = some number) :
    -2147483648 ≤ number ∧ number ≤ 2147483647 := by
  obtain ⟨encoded, -, rfl⟩ := Option.map_eq_some_iff.mp h
  obtain ⟨hlow, hhigh⟩ := signedFromBytes_range ((digest encoded).data.toList.take 4)
  have hlength : ((digest encoded).data.toList.take 4).length ≤ 4 := List.length_take_le 4 _
  have hpow : (256 : ℤ) ^ ((digest encoded).data.toList.take 4).length ≤ 256 ^ 4 :=
    pow_le_pow_right₀ (by norm_num) hlength
  constructor <;> omega

/-! ## Orders of locks -/

section Order

variable {digest : Bytes → Bytes}

theorem mem_entityLocks {keys : List EntityKey} {lock : AdvisoryLock}
    (h : lock ∈ entityLocks digest keys) : ∃ key ∈ keys, entityLock? digest key = some lock := by
  induction keys with
  | nil => cases h
  | cons key keys ih =>
    unfold entityLocks at h
    split at h
    · cases h
    next lock' hlock' =>
      rcases List.mem_cons.mp h with rfl | h
      · exact ⟨key, List.mem_cons_self, hlock'⟩
      · obtain ⟨key', hkey', hlock⟩ := ih h
        exact ⟨key', List.mem_cons_of_mem key hkey', hlock⟩

/-- Some entity with the first lock comes before some entity with the second one. -/
def LockBefore (digest : Bytes → Bytes) (l l' : AdvisoryLock) : Prop :=
  l ≠ l' ∧ ∃ a b, a < b ∧ entityLock? digest a = some l ∧ entityLock? digest b = some l'

/-- An entity between two that share a lock has the same lock. -/
def LocksContiguous (digest : Bytes → Bytes) : Prop :=
  ∀ a b c l l', a < b → b < c → entityLock? digest a = some l → entityLock? digest c = some l →
    entityLock? digest b = some l' → l' = l

theorem entityLocks_inOrder {keys : List EntityKey} (h : keys.Pairwise (· < ·)) :
    (entityLocks digest keys).Pairwise fun l l' => l = l' ∨ LockBefore digest l l' := by
  induction keys with
  | nil => exact .nil
  | cons key keys ih =>
    obtain ⟨hkey, hkeys⟩ := List.pairwise_cons.mp h
    unfold entityLocks
    split
    · exact .nil
    next lock hlock =>
      refine List.pairwise_cons.mpr ⟨fun l' hl' => ?_, ih hkeys⟩
      obtain ⟨key', hkey', hlock'⟩ := mem_entityLocks hl'
      exact or_iff_not_imp_left.mpr fun hne => ⟨hne, key, key', hkey key' hkey', hlock, hlock'⟩

theorem acquiredLocks_inOrder (keys : List (EntityName × Text)) :
    (acquiredLocks digest keys).Pairwise fun l l' => l = l' ∨ LockBefore digest l l' := by
  unfold acquiredLocks
  split
  next ordered hordered => exact entityLocks_inOrder (orderedEntityKeys_eq_ok.mp hordered).1
  · exact .nil

/-- Where entities that share a lock lie next to each other, the order of the keys is one of the
locks. -/
theorem LocksContiguous.lockBefore_trans (h : LocksContiguous digest) {l₁ l₂ l₃ : AdvisoryLock}
    (h₁₂ : LockBefore digest l₁ l₂) (h₂₃ : LockBefore digest l₂ l₃) : LockBefore digest l₁ l₃ := by
  obtain ⟨hne, a, b, hab, ha, hb⟩ := h₁₂
  obtain ⟨hne', b', c, hbc, hb', hc⟩ := h₂₃
  -- Neither `c` nor anything else with another lock lies between `b'` and `b`.
  have hac : a < c := by
    by_contra hle
    have hca : c ≤ a := not_lt.mp hle
    exact hne (h b' a b l₂ l₁ (hbc.trans_le hca) hab hb' hb ha)
  refine ⟨?_, a, c, hac, ha, hc⟩
  rintro rfl
  rcases lt_trichotomy a b' with hlt | rfl | hlt
  · exact hne (h a b' c l₁ l₂ hlt hbc ha hc hb').symm
  · exact hne (Option.some.inj (ha.symm.trans hb'))
  · exact hne (h b' a b l₂ l₁ hlt hab hb' hb ha)

/-- An entity key as `acquire_entity_locks` is given it. -/
def EntityKey.raw (key : EntityKey) : EntityName × Text := (.member key.entityType, key.sourceId)

theorem normalizeEntityKey_raw (key : EntityKey) : normalizeEntityKey key.raw = .ok key := by
  simp [normalizeEntityKey, normalizedType, EntityKey.raw, bind_eq_ok, key.canonical]

theorem acquiredLocks_pair {a b : EntityKey} {l l' : AdvisoryLock} (hab : a < b)
    (ha : entityLock? digest a = some l) (hb : entityLock? digest b = some l') :
    acquiredLocks digest [a.raw, b.raw] = [l, l'] := by
  have hordered : orderedEntityKeys [a.raw, b.raw] = .ok [a, b] := by
    refine orderedEntityKeys_eq_ok.mpr ⟨by simpa using hab, ?_, ?_⟩
    · simp [normalizeEntityKey_raw]
    · simp [normalizeEntityKey_raw]
  simp [acquiredLocks, hordered, entityLocks, ha, hb]

/-- Transactions that take only their entity locks never wait for each other, whatever entities they
lock and however their steps are interleaved, if and only if entities that share a lock lie next to
each other in the order of the keys. -/
theorem entity_locks_deadlock_free_iff (digest : Bytes → Bytes) :
    (∀ (S σ : Type) (_ : DecidableEq S) (keys : S → List (EntityName × Text))
      (body : S → Transaction σ) (state : σ) (events : List (Event S)) (sessions : Finset S),
      ¬ (Runs.run Table.step (start (fun s => acquiredLocks digest (keys s)) body state)
        events).Deadlocked sessions) ↔ LocksContiguous digest := by
  constructor
  · intro hfree a b c l l' hab hbc ha hc hb
    by_contra hne
    let keys : Bool → List (EntityName × Text)
      | true => [a.raw, b.raw]
      | false => [b.raw, c.raw]
    exact hfree Bool Unit inferInstance keys (fun _ => .commit ()) () [.take true, .take false]
      {true, false} (Table.exists_deadlocked (by decide) (Ne.symm hne) (acquiredLocks_pair hab ha hb)
        (acquiredLocks_pair hbc hb hc))
  · intro h S σ _ keys body state events sessions
    have htrans : IsTrans AdvisoryLock (LockBefore digest) := ⟨fun _ _ _ => h.lockBefore_trans⟩
    have hirrefl : Std.Irrefl (LockBefore digest) := ⟨fun _ hself => hself.1 rfl⟩
    exact (Table.inOrder_run (fun s => acquiredLocks_inOrder (keys s)) events).not_deadlocked sessions

end Order

end Threadline
