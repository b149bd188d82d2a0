/-!
Lists of key-value pairs in insertion order.

A keyed list is a mapping that remembers the order in which its keys first appeared. Inserting under a
key that is present replaces the value in place; inserting under a new key appends. Erasing closes the
gap, so all other entries keep their relative order.

Main definitions: `Keyed.get?`, `Keyed.insert`, `Keyed.erase`, `Keyed.ofList`.
-/

namespace ShellUnits

/-- A mapping that remembers the order of its entries. -/
abbrev Keyed (κ ν : Type) := List (κ × ν)

namespace Keyed

variable {κ ν : Type} [DecidableEq κ]

/-- The value of the first entry with this key. -/
def get? (key : κ) : Keyed κ ν → Option ν
  | [] => none
  | (k, v) :: rest => if k = key then some v else get? key rest

/-- Whether some entry has this key. -/
def contains (key : κ) (entries : Keyed κ ν) : Bool :=
  (get? key entries).isSome

/-- Replaces the value of the entry with this key where it stands, or appends a new entry. -/
def insert (key : κ) (value : ν) : Keyed κ ν → Keyed κ ν
  | [] => [(key, value)]
  | (k, v) :: rest => if k = key then (k, value) :: rest else (k, v) :: insert key value rest

/-- Takes the entry with this key out; the others keep their order. -/
def erase (key : κ) : Keyed κ ν → Keyed κ ν
  | [] => []
  | (k, v) :: rest => if k = key then rest else (k, v) :: erase key rest

/-- The keyed list that arises from inserting these entries one after the other: a repeated key keeps
    its first place and takes its last value. -/
def ofList (entries : List (κ × ν)) : Keyed κ ν :=
  entries.foldl (fun acc entry => insert entry.1 entry.2 acc) []

/-- The keys in order. -/
def keys (entries : Keyed κ ν) : List κ :=
  entries.map Prod.fst

/-!
### What the operations do to the keys and to look-ups
-/

theorem get?_eq_none_iff {key : κ} {entries : Keyed κ ν} : get? key entries = none ↔ key ∉ keys entries := by
  induction entries with
  | nil => simp [get?, keys]
  | cons entry rest ih =>
    simp only [get?, keys, List.map_cons, List.mem_cons, not_or]
    split
    case isTrue h => simp [h]
    case isFalse h => simp [ih, keys, Ne.symm h]

theorem get?_isSome_iff {key : κ} {entries : Keyed κ ν} : (get? key entries).isSome ↔ key ∈ keys entries := by
  rw [Option.isSome_iff_ne_none, ne_eq, get?_eq_none_iff, Decidable.not_not]

theorem mem_of_get?_eq_some {key : κ} {value : ν} {entries : Keyed κ ν} (found : get? key entries = some value) :
    (key, value) ∈ entries := by
  induction entries with
  | nil => simp [get?] at found
  | cons entry rest ih =>
    simp only [get?] at found
    split at found
    case isTrue h =>
      rw [← h, ← Option.some.inj found]
      exact List.mem_cons_self
    case isFalse h => exact List.mem_cons_of_mem _ (ih found)

@[simp] theorem get?_insert_self (key : κ) (value : ν) (entries : Keyed κ ν) :
    get? key (insert key value entries) = some value := by
  induction entries with
  | nil => simp [insert, get?]
  | cons entry rest ih =>
    simp only [insert]
    split
    case isTrue h => simp [get?, h]
    case isFalse h => simp [get?, h, ih]

theorem get?_insert_of_ne {key other : κ} (h : other ≠ key) (value : ν) (entries : Keyed κ ν) :
    get? other (insert key value entries) = get? other entries := by
  induction entries with
  | nil => simp [insert, get?, Ne.symm h]
  | cons entry rest ih =>
    simp only [insert]
    split
    case isTrue hk => simp [get?, hk, Ne.symm h]
    case isFalse hk => simp [get?, ih]

/-- Inserting under a key that is present keeps all keys where they are. -/
theorem keys_insert_of_mem {key : κ} (value : ν) {entries : Keyed κ ν} (h : key ∈ keys entries) :
    keys (insert key value entries) = keys entries := by
  induction entries with
  | nil => simp [keys] at h
  | cons entry rest ih =>
    simp only [insert]
    split
    case isTrue hk => simp [keys, hk]
    case isFalse hk =>
      have : key ∈ keys rest := by
        simp only [keys, List.map_cons, List.mem_cons] at h
        exact h.resolve_left (Ne.symm hk)
      simpa [keys] using ih this

/-- Inserting under a new key appends the entry. -/
theorem insert_of_not_mem {key : κ} (value : ν) {entries : Keyed κ ν} (h : key ∉ keys entries) :
    insert key value entries = entries ++ [(key, value)] := by
  induction entries with
  | nil => rfl
  | cons entry rest ih =>
    simp only [keys, List.map_cons, List.mem_cons, not_or] at h
    simp [insert, Ne.symm h.1, ih h.2]

theorem get?_erase_of_ne {key other : κ} (h : other ≠ key) (entries : Keyed κ ν) :
    get? other (erase key entries) = get? other entries := by
  induction entries with
  | nil => rfl
  | cons entry rest ih =>
    simp only [erase]
    split
    case isTrue hk => simp [get?, hk, Ne.symm h]
    case isFalse hk => simp [get?, ih]

/-- Writing the value that stands there changes nothing. -/
theorem insert_of_get? {key : κ} {value : ν} {entries : Keyed κ ν} (h : get? key entries = some value) :
    insert key value entries = entries := by
  induction entries with
  | nil => simp [get?] at h
  | cons entry rest ih =>
    simp only [get?] at h
    simp only [insert]
    split
    case isTrue hk =>
      simp only [hk, if_true, Option.some.injEq] at h
      rw [← h]
    case isFalse hk => rw [ih (by simpa [hk] using h)]

/-- Of two values inserted under one key the second one counts. -/
theorem insert_insert (key : κ) (value old : ν) (entries : Keyed κ ν) :
    insert key value (insert key old entries) = insert key value entries := by
  induction entries with
  | nil => simp [insert]
  | cons entry rest ih =>
    simp only [insert]
    split
    case isTrue h => simp [insert, h]
    case isFalse h => simp [insert, h, ih]

/-- Inserting under a key concerns no selection of other keys. -/
theorem filter_insert (selects : κ → Bool) {key : κ} (h : selects key = false) (value : ν) (entries : Keyed κ ν) :
    (insert key value entries).filter (fun entry => selects entry.1) =
      entries.filter fun entry => selects entry.1 := by
  induction entries with
  | nil => simp [insert, h]
  | cons entry rest ih =>
    simp only [insert]
    split
    case isTrue hk => simp [hk, h]
    case isFalse hk => rw [List.filter_cons, ih, List.filter_cons]

/-!
### Distinct keys
-/

/-- No key has two entries. -/
def Distinct (entries : Keyed κ ν) : Prop :=
  (keys entries).Nodup

instance (entries : Keyed κ ν) : Decidable (Distinct entries) :=
  inferInstanceAs (Decidable (keys entries).Nodup)

/-- Where keys are distinct, each entry is found. -/
theorem get?_eq_some_iff {entries : Keyed κ ν} (distinct : Distinct entries) {key : κ} {value : ν} :
    get? key entries = some value ↔ (key, value) ∈ entries := by
  constructor
  · exact mem_of_get?_eq_some
  · intro mem
    induction entries with
    | nil => simp at mem
    | cons entry rest ih =>
      simp only [Distinct, keys, List.map_cons, List.nodup_cons] at distinct
      rcases List.mem_cons.mp mem with rfl | later
      · simp [get?]
      · have ne : entry.1 ≠ key := by
          intro same
          exact distinct.1 (same ▸ List.mem_map.mpr ⟨_, later, rfl⟩)
        rw [get?, if_neg ne]
        exact ih distinct.2 later

theorem keys_erase_sublist (key : κ) (entries : Keyed κ ν) :
    (keys (erase key entries)).Sublist (keys entries) := by
  induction entries with
  | nil => exact List.Sublist.refl _
  | cons entry rest ih =>
    simp only [erase]
    split
    case isTrue h => exact List.sublist_cons_self _ _
    case isFalse h => exact ih.cons_cons entry.1

theorem Distinct.erase {entries : Keyed κ ν} (distinct : Distinct entries) (key : κ) :
    Distinct (erase key entries) :=
  distinct.sublist (keys_erase_sublist key entries)

theorem Distinct.insert {entries : Keyed κ ν} (distinct : Distinct entries) (key : κ) (value : ν) :
    Distinct (insert key value entries) := by
  by_cases h : key ∈ keys entries
  · rw [Distinct, keys_insert_of_mem value h]
    exact distinct
  · rw [Distinct, insert_of_not_mem value h, keys, List.map_append, List.nodup_append]
    refine ⟨distinct, by simp, ?_⟩
    rintro old oldMem new newMem rfl
    simp only [List.map_cons, List.map_nil, List.mem_singleton] at newMem
    exact h (newMem ▸ oldMem)

/-- Where keys are distinct, an erased key is gone. -/
theorem get?_erase_self {entries : Keyed κ ν} (distinct : Distinct entries) (key : κ) :
    get? key (erase key entries) = none := by
  induction entries with
  | nil => rfl
  | cons entry rest ih =>
    simp only [Distinct, keys, List.map_cons, List.nodup_cons] at distinct
    simp only [erase]
    split
    case isTrue h => exact get?_eq_none_iff.mpr (h ▸ distinct.1)
    case isFalse h => simp [get?, h, ih distinct.2]

/-- Where keys are distinct, inserting under a key that is present changes its entry alone. -/
theorem insert_eq_map {entries : Keyed κ ν} (distinct : Distinct entries) {key : κ} (h : key ∈ keys entries)
    (value : ν) :
    insert key value entries = entries.map fun entry => if entry.1 = key then (key, value) else entry := by
  induction entries with
  | nil => simp [keys] at h
  | cons entry rest ih =>
    simp only [Distinct, keys, List.map_cons, List.nodup_cons] at distinct
    rw [insert, List.map_cons]
    split
    case isTrue here =>
      have fresh : key ∉ rest.map Prod.fst := here ▸ distinct.1
      have kept : ∀ other ∈ rest, (if other.1 = key then (key, value) else other) = other := by
        intro other mem
        exact if_neg fun same : other.1 = key => fresh (same ▸ List.mem_map_of_mem mem)
      rw [List.map_congr_left kept, List.map_id', here]
    case isFalse later =>
      simp only [keys, List.map_cons, List.mem_cons] at h
      rw [ih distinct.2 (h.resolve_left (Ne.symm later))]

/-- Where keys are distinct, erasing a key leaves the entries with other keys. -/
theorem erase_eq_filter {entries : Keyed κ ν} (distinct : Distinct entries) (key : κ) :
    erase key entries = entries.filter fun entry => entry.1 ≠ key := by
  induction entries with
  | nil => rfl
  | cons entry rest ih =>
    simp only [Distinct, keys, List.map_cons, List.nodup_cons] at distinct
    rw [erase]
    split
    case isTrue here =>
      have fresh : key ∉ rest.map Prod.fst := here ▸ distinct.1
      have kept : ∀ other ∈ rest, decide (other.1 ≠ key) = true := by
        intro other mem
        exact decide_eq_true fun same => fresh (same ▸ List.mem_map_of_mem mem)
      rw [List.filter_cons_of_neg (by simp [here]), List.filter_eq_self.mpr kept]
    case isFalse later => rw [List.filter_cons_of_pos (by simpa using later), ih distinct.2]

end Keyed

end ShellUnits
