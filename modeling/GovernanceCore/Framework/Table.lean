import Mathlib.Data.List.Nodup
import Mathlib.Data.List.Basic

/-!
# Relational tables

A table is its list of rows in insertion order, together with the fact that its primary key is
unique. An insertion that would break a unique index is refused, as the database refuses it, and a
modification may not touch the columns an index is on, so both operations keep the invariant by
construction.

`IndexedTable` is a table with a second unique index.

A query that matches several rows without an `ORDER BY` may return any of them: `pick` takes the
choice as an argument.
-/

namespace Framework

/-! ### Unordered choice -/

section Pick

variable {R : Type}

/-- The `n`-th of the rows that satisfy `p`, counted round; nothing when no row does. -/
def pick (l : List R) (p : R → Bool) (n : Nat) : Option R :=
  (l.filter p)[n % (l.filter p).length]?

/-- What is picked is a row that matches. -/
theorem pick_eq_some {l : List R} {p : R → Bool} {n : Nat} {r : R} (h : pick l p n = some r) :
    r ∈ l ∧ p r = true :=
  List.mem_filter.mp (List.mem_of_getElem? h)

/-- Every row with the value that is asked for can be picked. -/
theorem exists_pick {V : Type} [DecidableEq V] {l : List R} {column : R → V} {v : V} {r : R}
    (hr : r ∈ l) (hv : column r = v) : ∃ n, pick l (fun r => column r = v) n = some r := by
  have hmem : r ∈ l.filter fun r => column r = v :=
    List.mem_filter.mpr ⟨hr, decide_eq_true hv⟩
  obtain ⟨n, hn⟩ := List.mem_iff_getElem?.mp hmem
  have hlt : n < (l.filter fun r => column r = v).length := (List.getElem?_eq_some_iff.mp hn).1
  refine ⟨n, ?_⟩
  rw [pick, Nat.mod_eq_of_lt hlt]
  exact hn

/-- Nothing is picked only where nothing matches. -/
theorem eq_false_of_pick_eq_none {l : List R} {p : R → Bool} {n : Nat} (h : pick l p n = none) :
    ∀ r ∈ l, p r = false := by
  intro r hr
  by_contra hp
  have hmem : r ∈ l.filter p := List.mem_filter.mpr ⟨hr, (Bool.not_eq_false _).mp hp⟩
  rw [pick, List.getElem?_eq_none_iff] at h
  exact absurd (Nat.mod_lt n (List.length_pos_of_mem hmem)) (Nat.not_lt.mpr h)

end Pick

/-! ### Overwriting the row with a given key -/

section Overwrite

variable {R K : Type} [DecidableEq K] {key : R → K}

/-- Apply `f` to every row with key `k`. -/
def overwrite (key : R → K) (k : K) (f : R → R) (l : List R) : List R :=
  l.map fun r => if key r = k then f r else r

/-- A column that is not changed in the rows with the key is the same before and after. -/
theorem map_overwrite_of_forall_mem {J : Type} {col : R → J} {k : K} {f : R → R} {l : List R}
    (hf : ∀ r ∈ l, key r = k → col (f r) = col r) :
    (overwrite key k f l).map col = l.map col := by
  unfold overwrite
  rw [List.map_map]
  refine List.map_congr_left fun r hr => ?_
  by_cases hk : key r = k
  · simp [hk, hf r hr hk]
  · simp [hk]

/-- A column that `f` does not touch is the same before and after. -/
theorem map_overwrite {J : Type} {col : R → J} {f : R → R} (hf : ∀ r, col (f r) = col r) (k : K)
    (l : List R) : (overwrite key k f l).map col = l.map col :=
  map_overwrite_of_forall_mem fun r _ _ => hf r

theorem mem_overwrite {k : K} {f : R → R} {l : List R} {r : R} :
    r ∈ overwrite key k f l ↔
      (∃ r₀ ∈ l, key r₀ = k ∧ r = f r₀) ∨ (r ∈ l ∧ key r ≠ k) := by
  unfold overwrite
  rw [List.mem_map]
  refine ⟨?_, ?_⟩
  · rintro ⟨r₀, hr₀, rfl⟩
    by_cases hk : key r₀ = k
    · exact Or.inl ⟨r₀, hr₀, hk, by simp [hk]⟩
    · simp only [if_neg hk]
      exact Or.inr ⟨hr₀, hk⟩
  · rintro (⟨r₀, hr₀, hk, rfl⟩ | ⟨hr, hk⟩)
    · exact ⟨r₀, hr₀, by simp [hk]⟩
    · exact ⟨r, hr, by simp [hk]⟩

/-- A selection by a column that `f` does not touch. -/
theorem filter_overwrite {k : K} {f : R → R} {sel : R → Bool} (hf : ∀ r, sel (f r) = sel r)
    (l : List R) : (overwrite key k f l).filter sel = overwrite key k f (l.filter sel) := by
  unfold overwrite
  rw [List.filter_map]
  congr 1
  refine List.filter_congr fun r _ => ?_
  by_cases hk : key r = k
  · simp [hk, hf]
  · simp [hk]

/-- Nothing changes when no row has the key. -/
theorem overwrite_of_forall_ne {k : K} {f : R → R} {l : List R} (h : ∀ r ∈ l, key r ≠ k) :
    overwrite key k f l = l := by
  unfold overwrite
  calc l.map (fun r => if key r = k then f r else r)
      = l.map id := List.map_congr_left fun r hr => if_neg (h r hr)
    _ = l := List.map_id l

end Overwrite

/-- A unique column stays unique when a row with a new value is appended. -/
theorem nodup_map_concat {R J : Type} {col : R → J} {l : List R} {r : R}
    (hl : (l.map col).Nodup) (hr : col r ∉ l.map col) : ((l ++ [r]).map col).Nodup := by
  rw [List.map_append, List.map_singleton, List.nodup_append]
  refine ⟨hl, List.nodup_singleton _, ?_⟩
  intro a ha b hb hab
  rw [List.mem_singleton] at hb
  exact hr (hb ▸ hab ▸ ha)

/-! ### Tables -/

/-- A table with primary key `key`. -/
structure Table {R K : Type} (key : R → K) where
  rows : List R
  /-- The primary key is unique. -/
  key_nodup : (rows.map key).Nodup

namespace Table

variable {R K : Type} [DecidableEq K] {key : R → K}

instance : EmptyCollection (Table key) := ⟨⟨[], List.nodup_nil⟩⟩

instance : Membership R (Table key) := ⟨fun t r => r ∈ t.rows⟩

omit [DecidableEq K] in
theorem mem_def {t : Table key} {r : R} : r ∈ t ↔ r ∈ t.rows := Iff.rfl

omit [DecidableEq K] in
@[simp] theorem notMem_empty (r : R) : r ∉ (∅ : Table key) := List.not_mem_nil

/-- `SELECT … WHERE key = k`. -/
def find (t : Table key) (k : K) : Option R := t.rows.find? fun r => decide (key r = k)

/-- `INSERT`: refused when the key is taken. -/
def insert (t : Table key) (r : R) : Option (Table key) :=
  if h : key r ∈ t.rows.map key then none
  else some ⟨t.rows ++ [r], nodup_map_concat t.key_nodup h⟩

/-- `UPDATE … WHERE key = k` of columns other than the key. -/
def modify (t : Table key) (k : K) (f : R → R) (hf : ∀ r, key (f r) = key r) : Table key where
  rows := overwrite key k f t.rows
  key_nodup := by rw [map_overwrite hf]; exact t.key_nodup

/-! #### Looking a row up -/

omit [DecidableEq K] in
/-- Two rows with the same key are the same row. -/
theorem eq_of_key_eq {t : Table key} {r r' : R} (h : r ∈ t) (h' : r' ∈ t) (hk : key r = key r') :
    r = r' :=
  List.inj_on_of_nodup_map t.key_nodup h h' hk

theorem find_eq_some_iff {t : Table key} {k : K} {r : R} :
    t.find k = some r ↔ r ∈ t ∧ key r = k := by
  refine ⟨?_, ?_⟩
  · intro h
    exact ⟨List.mem_of_find?_eq_some h, by simpa using List.find?_some h⟩
  · rintro ⟨hr, hk⟩
    cases hf : t.find k with
    | none =>
      have := List.find?_eq_none.mp hf r hr
      exact absurd hk (by simpa using this)
    | some r' =>
      -- the search stops at the first match; the unique key makes it the only one
      have hr' : r' ∈ t := List.mem_of_find?_eq_some hf
      have hk' : key r' = k := by simpa using List.find?_some hf
      rw [eq_of_key_eq hr hr' (hk.trans hk'.symm)]

theorem find_eq_none_iff {t : Table key} {k : K} :
    t.find k = none ↔ ∀ r ∈ t, key r ≠ k := by
  unfold find
  rw [List.find?_eq_none]
  simp only [decide_eq_true_eq]
  exact Iff.rfl

/-! #### Insertion -/

theorem find_eq_none_iff_notMem_map {t : Table key} {k : K} :
    t.find k = none ↔ k ∉ t.rows.map key := by
  rw [find_eq_none_iff, List.mem_map]
  exact ⟨fun h ⟨r, hr, hk⟩ => h r hr hk, fun h r hr hk => h ⟨r, hr, hk⟩⟩

theorem insert_eq_some_iff {t t' : Table key} {r : R} :
    t.insert r = some t' ↔ t.find (key r) = none ∧ t'.rows = t.rows ++ [r] := by
  rw [find_eq_none_iff_notMem_map]
  unfold insert
  split
  · next h => simp [h]
  · next h =>
    rw [Option.some.injEq]
    refine ⟨?_, ?_⟩
    · rintro rfl; exact ⟨h, rfl⟩
    · -- a table is its rows: the uniqueness field is a proof
      rintro ⟨-, hrows⟩
      cases t'
      simp_all

/-- An insertion of a new key succeeds. -/
theorem exists_insert {t : Table key} {r : R} (h : t.find (key r) = none) :
    ∃ t' : Table key, t.insert r = some t' ∧ t'.rows = t.rows ++ [r] := by
  have hkey := find_eq_none_iff_notMem_map.mp h
  exact ⟨_, dif_neg hkey, rfl⟩

/-- An insertion changes the table. -/
theorem ne_of_insert {t t' : Table key} {r : R} (h : t.insert r = some t') : t' ≠ t := by
  intro hsame
  have hrows := (insert_eq_some_iff.mp h).2
  rw [hsame] at hrows
  exact List.cons_ne_nil r [] (List.self_eq_append_right.mp hrows)

theorem mem_insert {t t' : Table key} {r r' : R} (h : t.insert r = some t') :
    r' ∈ t' ↔ r' ∈ t ∨ r' = r := by
  rw [mem_def, (insert_eq_some_iff.mp h).2]
  simp [mem_def]

theorem find_insert_self {t t' : Table key} {r : R} (h : t.insert r = some t') :
    t'.find (key r) = some r :=
  find_eq_some_iff.mpr ⟨(mem_insert h).mpr (Or.inr rfl), rfl⟩

theorem find_insert_of_ne {t t' : Table key} {r : R} {k : K} (h : t.insert r = some t')
    (hk : k ≠ key r) : t'.find k = t.find k := by
  rw [find, (insert_eq_some_iff.mp h).2, List.find?_append]
  have : List.find? (fun x => decide (key x = k)) [r] = none := by simp [Ne.symm hk]
  rw [this, Option.or_none, find]

/-! #### Modification -/

section Modify

variable {t : Table key} {k : K} {f : R → R} (hf : ∀ r, key (f r) = key r)

@[simp] theorem rows_modify : (t.modify k f hf).rows = overwrite key k f t.rows := rfl

theorem mem_modify {r : R} :
    r ∈ t.modify k f hf ↔ (∃ r₀ ∈ t, key r₀ = k ∧ r = f r₀) ∨ (r ∈ t ∧ key r ≠ k) :=
  mem_overwrite

theorem find_modify_self : (t.modify k f hf).find k = (t.find k).map f := by
  cases h : t.find k with
  | none =>
    rw [Option.map_none, find_eq_none_iff]
    intro r hr
    rcases (mem_modify hf).mp hr with ⟨r₀, hr₀, hk, rfl⟩ | ⟨-, hk⟩
    · exact absurd hk (find_eq_none_iff.mp h r₀ hr₀)
    · exact hk
  | some r =>
    obtain ⟨hr, hk⟩ := find_eq_some_iff.mp h
    rw [Option.map_some, find_eq_some_iff]
    exact ⟨(mem_modify hf).mpr (Or.inl ⟨r, hr, hk, rfl⟩), by rw [hf, hk]⟩

theorem find_modify_of_ne {k' : K} (hk : k' ≠ k) : (t.modify k f hf).find k' = t.find k' := by
  cases h : t.find k' with
  | none =>
    rw [find_eq_none_iff] at h ⊢
    intro r hr hk'
    rcases (mem_modify hf).mp hr with ⟨r₀, hr₀, hk₀, rfl⟩ | ⟨hr, -⟩
    · -- a modified row has kept its key `k`
      exact hk ((hf r₀ ▸ hk').symm.trans hk₀)
    · exact h r hr hk'
  | some r =>
    rw [find_eq_some_iff] at h ⊢
    exact ⟨(mem_modify hf).mpr (Or.inr ⟨h.1, fun hr => hk (h.2.symm.trans hr)⟩), h.2⟩

/-- A row that is modified right after it was inserted. -/
theorem rows_modify_insert {t' : Table key} {r : R} (h : t.insert r = some t') :
    (t'.modify (key r) f hf).rows = t.rows ++ [f r] := by
  obtain ⟨hnew, hrows⟩ := insert_eq_some_iff.mp h
  have hold : overwrite key (key r) f t.rows = t.rows :=
    overwrite_of_forall_ne (find_eq_none_iff.mp hnew)
  have hsplit : overwrite key (key r) f (t.rows ++ [r])
      = overwrite key (key r) f t.rows ++ [f r] := by
    simp [overwrite]
  rw [rows_modify, hrows, hsplit, hold]

end Modify

end Table

/-! ### Tables with a second unique index -/

/-- A table with primary key `key` and a unique index on `index`. -/
structure IndexedTable {R K J : Type} (key : R → K) (index : R → J) extends Table key where
  /-- The second index is unique as well. -/
  index_nodup : (rows.map index).Nodup

namespace IndexedTable

variable {R K J : Type} {key : R → K} {index : R → J}

instance : EmptyCollection (IndexedTable key index) := ⟨⟨∅, List.nodup_nil⟩⟩

instance : Membership R (IndexedTable key index) := ⟨fun t r => r ∈ t.rows⟩

theorem mem_def {t : IndexedTable key index} {r : R} : r ∈ t ↔ r ∈ t.rows := Iff.rfl

@[simp] theorem notMem_empty (r : R) : r ∉ (∅ : IndexedTable key index) := List.not_mem_nil

/-- The same rows, as a table whose key is the second index. -/
def byIndex (t : IndexedTable key index) : Table index := ⟨t.rows, t.index_nodup⟩

/-- Two rows with the same index are the same row. -/
theorem eq_of_index_eq {t : IndexedTable key index} {r r' : R} (h : r ∈ t) (h' : r' ∈ t)
    (hi : index r = index r') : r = r' :=
  Table.eq_of_key_eq (t := t.byIndex) h h' hi

variable [DecidableEq J]

/-- `SELECT … WHERE index = j`. -/
def lookup (t : IndexedTable key index) (j : J) : Option R := t.byIndex.find j

theorem lookup_eq_some_iff {t : IndexedTable key index} {j : J} {r : R} :
    t.lookup j = some r ↔ r ∈ t ∧ index r = j :=
  Table.find_eq_some_iff

theorem lookup_eq_none_iff {t : IndexedTable key index} {j : J} :
    t.lookup j = none ↔ ∀ r ∈ t, index r ≠ j :=
  Table.find_eq_none_iff

variable [DecidableEq K]

/-- `INSERT`: refused when either index is taken. -/
def insert (t : IndexedTable key index) (r : R) : Option (IndexedTable key index) :=
  if h : key r ∈ t.rows.map key ∨ index r ∈ t.rows.map index then none
  else some
    { rows := t.rows ++ [r]
      key_nodup := nodup_map_concat t.key_nodup fun hk => h (Or.inl hk)
      index_nodup := nodup_map_concat t.index_nodup fun hi => h (Or.inr hi) }

/-- `UPDATE … WHERE key = k` of columns no index is on. -/
def modify (t : IndexedTable key index) (k : K) (f : R → R) (hf : ∀ r, key (f r) = key r)
    (hi : ∀ r, index (f r) = index r) : IndexedTable key index where
  toTable := t.toTable.modify k f hf
  index_nodup := by rw [Table.rows_modify, map_overwrite hi]; exact t.index_nodup

theorem insert_eq_some_iff {t t' : IndexedTable key index} {r : R} :
    t.insert r = some t' ↔
      (t.toTable.find (key r) = none ∧ t.lookup (index r) = none) ∧ t'.rows = t.rows ++ [r] := by
  have hidx : t.lookup (index r) = none ↔ index r ∉ t.rows.map index :=
    Table.find_eq_none_iff_notMem_map
  rw [Table.find_eq_none_iff_notMem_map, hidx]
  unfold insert
  split
  · next h => simp only [reduceCtorEq, false_iff]; tauto
  · next h =>
    rw [Option.some.injEq]
    refine ⟨?_, ?_⟩
    · rintro rfl; exact ⟨not_or.mp h, rfl⟩
    · rintro ⟨-, hrows⟩
      obtain ⟨⟨rows, hk⟩, hj⟩ := t'
      simp_all

theorem mem_insert {t t' : IndexedTable key index} {r r' : R} (h : t.insert r = some t') :
    r' ∈ t' ↔ r' ∈ t ∨ r' = r := by
  rw [mem_def, (insert_eq_some_iff.mp h).2]
  simp [mem_def]

/-- An insertion that is new to both indexes succeeds. -/
theorem exists_insert {t : IndexedTable key index} {r : R}
    (hkey : t.toTable.find (key r) = none) (hindex : t.lookup (index r) = none) :
    ∃ t' : IndexedTable key index, t.insert r = some t' ∧ t'.rows = t.rows ++ [r] := by
  have hno : ¬(key r ∈ t.rows.map key ∨ index r ∈ t.rows.map index) :=
    not_or.mpr ⟨Table.find_eq_none_iff_notMem_map.mp hkey,
      Table.find_eq_none_iff_notMem_map.mp hindex⟩
  exact ⟨_, dif_neg hno, rfl⟩

/-- An insertion, seen through the second index. -/
theorem insert_byIndex {t t' : IndexedTable key index} {r : R} (h : t.insert r = some t') :
    t.byIndex.insert r = some t'.byIndex := by
  obtain ⟨⟨-, hidx⟩, hrows⟩ := insert_eq_some_iff.mp h
  exact Table.insert_eq_some_iff.mpr ⟨hidx, hrows⟩

section Modify

variable {t : IndexedTable key index} {k : K} {f : R → R} {hf : ∀ r, key (f r) = key r}
  (hi : ∀ r, index (f r) = index r)

omit [DecidableEq J] in
theorem mem_modify {r : R} :
    r ∈ t.modify k f hf hi ↔ (∃ r₀ ∈ t, key r₀ = k ∧ r = f r₀) ∨ (r ∈ t ∧ key r ≠ k) :=
  mem_overwrite

/-- The row found under an index after a modification: the modified row when it is the one with
key `k`, else the same row. -/
theorem lookup_modify (j : J) :
    (t.modify k f hf hi).lookup j
      = (t.lookup j).map fun r => if key r = k then f r else r := by
  cases h : t.lookup j with
  | none =>
    rw [lookup_eq_none_iff] at h
    rw [Option.map_none, lookup_eq_none_iff]
    intro r hr
    rcases (mem_modify hi).mp hr with ⟨r₀, hr₀, -, rfl⟩ | ⟨hr, -⟩
    · rw [hi]; exact h r₀ hr₀
    · exact h r hr
  | some r =>
    obtain ⟨hr, hj⟩ := lookup_eq_some_iff.mp h
    rw [Option.map_some, lookup_eq_some_iff]
    by_cases hk : key r = k
    · rw [if_pos hk]
      exact ⟨(mem_modify hi).mpr (Or.inl ⟨r, hr, hk, rfl⟩), by rw [hi, hj]⟩
    · rw [if_neg hk]
      exact ⟨(mem_modify hi).mpr (Or.inr ⟨hr, hk⟩), hj⟩

end Modify

end IndexedTable

end Framework
