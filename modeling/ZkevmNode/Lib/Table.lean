import Mathlib.Data.List.Nodup

set_option autoImplicit false

/-! A table with a primary key, as a SQL table that the code inserts into,
updates, deletes from and queries: its rows in the order they were inserted, no
two with the same key. An insert of a key the table holds fails; an update
replaces, in its place, the row with the key of the new row, and does nothing
when there is none; a delete removes the rows it selects, and a query returns
them in the table's order. A relation between
rows that each write respects holds, key by key, between a table and every table
it is written into. -/

/-- A table whose rows have distinct keys under `key`. -/
structure Table {κ ρ : Type} (key : ρ → κ) where
  rows : List ρ
  keyed : (rows.map key).Nodup

namespace Table

variable {κ ρ : Type} {key : ρ → κ}

/-- The table with no rows. -/
def empty : Table key := ⟨[], List.nodup_nil⟩

theorem ext {t t' : Table key} (same : t.rows = t'.rows) : t = t' := by
  obtain ⟨rows, keyed⟩ := t
  obtain ⟨rows', keyed'⟩ := t'
  cases same
  rfl

/-- The rows a query selects, in the table's order. -/
def select (t : Table key) (p : ρ → Bool) : List ρ := t.rows.filter p

@[simp] theorem rows_empty : (empty : Table key).rows = [] := rfl

@[simp] theorem mem_select {t : Table key} {p : ρ → Bool} {r : ρ} :
    r ∈ t.select p ↔ r ∈ t.rows ∧ p r = true := List.mem_filter

theorem nodup_select (t : Table key) (p : ρ → Bool) : ((t.select p).map key).Nodup :=
  List.Nodup.sublist (List.filter_sublist.map key) t.keyed

/-- A delete of the rows `p` holds of. -/
def delete (t : Table key) (p : ρ → Bool) : Table key := ⟨t.select fun r => !p r, t.nodup_select _⟩

@[simp] theorem mem_delete {t : Table key} {p : ρ → Bool} {r : ρ} :
    r ∈ (t.delete p).rows ↔ r ∈ t.rows ∧ p r = false := by
  simp [delete]

variable [DecidableEq κ]

/-- The row with key `k`. -/
def find? (t : Table key) (k : κ) : Option ρ := t.rows.find? fun r => key r = k

/-- An insert, which fails on a key the table holds. -/
def insert (t : Table key) (r : ρ) : Option (Table key) :=
  if taken : key r ∈ t.rows.map key then none
  else some ⟨t.rows ++ [r], by
    rw [List.map_append, List.nodup_append]
    refine ⟨t.keyed, List.nodup_singleton _, fun k member k' single => ?_⟩
    rw [List.map_singleton, List.mem_singleton] at single
    exact fun same => taken (single ▸ same ▸ member)⟩

theorem map_key_update (rows : List ρ) (r : ρ) :
    (rows.map fun r' => if key r' = key r then r else r').map key = rows.map key := by
  rw [List.map_map]
  congr 1
  funext r'
  by_cases same : key r' = key r <;> simp [same]

/-- An update of the row with the key of `r`. -/
def update (t : Table key) (r : ρ) : Table key :=
  ⟨t.rows.map fun r' => if key r' = key r then r else r', by rw [map_key_update]; exact t.keyed⟩

theorem find?_key {t : Table key} {k : κ} {r : ρ} (found : t.find? k = some r) : key r = k := by
  simpa using List.find?_some found

theorem mem_of_find? {t : Table key} {k : κ} {r : ρ} (found : t.find? k = some r) : r ∈ t.rows :=
  List.mem_of_find?_eq_some found

theorem find?_of_mem {t : Table key} {r : ρ} (member : r ∈ t.rows) : t.find? (key r) = some r := by
  obtain ⟨rows, keyed⟩ := t
  simp only [find?] at member ⊢
  induction rows with
  | nil => cases member
  | cons first rest ih =>
    rw [List.map_cons, List.nodup_cons] at keyed
    rcases List.mem_cons.mp member with here | later
    · subst here
      simp
    · have other : key first ≠ key r := fun same => keyed.1 (same ▸ List.mem_map_of_mem later)
      rw [List.find?_cons_of_neg (by simpa using other)]
      exact ih keyed.2 later

theorem find?_eq_none {t : Table key} {k : κ} : t.find? k = none ↔ k ∉ t.rows.map key := by
  simp [find?, List.find?_eq_none]

theorem find?_select (t : Table key) (p : ρ → Bool) (k : κ) :
    (t.select p).find? (fun r => key r = k) = (t.find? k).filter p := by
  obtain ⟨rows, keyed⟩ := t
  simp only [select, find?]
  induction rows with
  | nil => rfl
  | cons first rest ih =>
    rw [List.map_cons, List.nodup_cons] at keyed
    by_cases here : key first = k
    · -- no later row has the key of the first
      have missing : (rest.filter p).find? (fun r => key r = k) = none := by
        refine List.find?_eq_none.mpr fun r member same => keyed.1 ?_
        have same : key r = key first := by simpa [here] using same
        exact same ▸ List.mem_map_of_mem (List.mem_of_mem_filter member)
      rw [List.find?_cons_of_pos (by simpa using here), List.filter_cons]
      cases chosen : p first <;> simp [here, missing, chosen, Option.filter_some]
    · rw [List.find?_cons_of_neg (by simpa using here), List.filter_cons, ← ih keyed.2]
      cases p first <;> simp [here]

theorem find?_update (t : Table key) (r : ρ) (k : κ) :
    (t.update r).find? k = if key r = k then (t.find? k).map fun _ => r else t.find? k := by
  obtain ⟨rows, keyed⟩ := t
  simp only [update, find?]
  clear keyed
  induction rows with
  | nil => split <;> rfl
  | cons first rest ih =>
    by_cases written : key first = key r
    · by_cases here : key r = k
      · simp [written, here]
      · have other : key first ≠ k := written ▸ here
        rw [List.map_cons, if_pos written, List.find?_cons_of_neg (by simpa using here), ih,
          if_neg here, if_neg here, List.find?_cons_of_neg (by simpa using other)]
    · rw [List.map_cons, if_neg written]
      by_cases here : key first = k
      · have away : key r ≠ k := fun same => written (here.trans same.symm)
        rw [List.find?_cons_of_pos (by simpa using here), if_neg away,
          List.find?_cons_of_pos (by simpa using here)]
      · simp only [List.find?_cons, here, decide_false] at ih ⊢
        exact ih

theorem find?_insert {t t' : Table key} {r : ρ} (inserted : t.insert r = some t') (k : κ) :
    t'.find? k = if key r = k then some r else t.find? k := by
  unfold insert at inserted
  split at inserted
  · cases inserted
  · rename_i fresh
    cases inserted
    by_cases here : key r = k
    · subst here
      have missing : t.find? (key r) = none := find?_eq_none.mpr fresh
      simp only [find?] at missing ⊢
      simp [List.find?_append, missing]
    · simp [find?, List.find?_append, here]

theorem insert_eq_none {t : Table key} {r : ρ} : t.insert r = none ↔ key r ∈ t.rows.map key := by
  unfold insert
  split <;> simp_all

theorem find?_insert_of_find? {t t' : Table key} {r r' : ρ} {k : κ} (inserted : t.insert r = some t')
    (found : t.find? k = some r') : t'.find? k = some r' := by
  have fresh : key r ≠ k := fun same => by
    have taken : key r ∈ t.rows.map key := by
      rw [same, ← find?_key found]
      exact List.mem_map_of_mem (mem_of_find? found)
    rw [insert_eq_none.mpr taken] at inserted
    cases inserted
  rw [find?_insert inserted, if_neg fresh, found]

theorem mem_update {t : Table key} {r r' : ρ} (member : r' ∈ (t.update r).rows) :
    r' ∈ t.rows ∨ r' = r := by
  obtain ⟨old, kept, written⟩ := List.mem_map.mp member
  by_cases same : key old = key r
  · rw [if_pos same] at written
    exact .inr written.symm
  · rw [if_neg same] at written
    exact .inl (written ▸ kept)

theorem rows_insert {t t' : Table key} {r : ρ} (inserted : t.insert r = some t') : t'.rows = t.rows ++ [r] := by
  unfold insert at inserted
  split at inserted
  · cases inserted
  · cases inserted
    rfl

theorem mem_insert {t t' : Table key} {r r' : ρ} (inserted : t.insert r = some t')
    (member : r' ∈ t'.rows) : r' ∈ t.rows ∨ r' = r := by
  unfold insert at inserted
  split at inserted
  · cases inserted
  · cases inserted
    simpa using member

theorem forall_mem_foldl_update {P : ρ → Prop} (f : ρ → ρ) :
    ∀ (rs : List ρ) (t : Table key), (∀ r ∈ t.rows, P r) → (∀ r ∈ rs, P (f r)) →
      ∀ r ∈ (rs.foldl (fun t r => t.update (f r)) t).rows, P r
  | [], _, holds, _ => holds
  | r :: rest, t, holds, written =>
    forall_mem_foldl_update f rest (t.update (f r))
      (fun r' member => (mem_update member).elim (holds r') fun same =>
        same ▸ written r List.mem_cons_self)
      fun r' member => written r' (List.mem_cons_of_mem _ member)

theorem mem_update_of_ne {t : Table key} {r r' : ρ} (member : r' ∈ t.rows) (other : key r' ≠ key r) :
    r' ∈ (t.update r).rows :=
  List.mem_map.mpr ⟨r', member, by simp [other]⟩

theorem find?_foldl_update (f : ρ → ρ) (keep : ∀ r, key (f r) = key r) :
    ∀ (rs : List ρ) (t : Table key), (rs.map key).Nodup → (∀ r ∈ rs, r ∈ t.rows) → ∀ k,
      (rs.foldl (fun t r => t.update (f r)) t).find? k =
        match rs.find? fun r => key r = k with
        | some r => some (f r)
        | none => t.find? k
  | [], t, _, _, k => rfl
  | r :: rest, t, distinct, inside, k => by
    rw [List.map_cons, List.nodup_cons] at distinct
    have others : ∀ r' ∈ rest, key r' ≠ key r := fun r' member same =>
      distinct.1 (same ▸ List.mem_map_of_mem member)
    have rest_inside : ∀ r' ∈ rest, r' ∈ (t.update (f r)).rows := fun r' member =>
      mem_update_of_ne (inside r' (List.mem_cons_of_mem _ member)) (keep r ▸ others r' member)
    rw [List.foldl_cons, find?_foldl_update f keep rest (t.update (f r)) distinct.2 rest_inside k,
      find?_update, keep r]
    by_cases here : key r = k
    · have missing : rest.find? (fun r' => key r' = k) = none :=
        List.find?_eq_none.mpr fun r' member same => others r' member (by simpa [here] using same)
      rw [missing, List.find?_cons_of_pos (by simpa using here), if_pos here,
        ← here, find?_of_mem (inside r List.mem_cons_self)]
      rfl
    · rw [List.find?_cons_of_neg (by simpa using here), if_neg here]

theorem find?_delete (t : Table key) (p : ρ → Bool) (k : κ) :
    (t.delete p).find? k = (t.find? k).filter fun r => !p r :=
  find?_select t _ k

/-- Every row of `t` has a row under its key in `t'`, related to it by `R`. -/
def Grows (R : ρ → ρ → Prop) (t t' : Table key) : Prop :=
  ∀ k r, t.find? k = some r → ∃ r', t'.find? k = some r' ∧ R r r'

variable {R : ρ → ρ → Prop}

theorem Grows.refl (reflexive : ∀ r, R r r) (t : Table key) : Grows R t t :=
  fun _ r found => ⟨r, found, reflexive r⟩

theorem Grows.trans (transitive : ∀ {a b c}, R a b → R b c → R a c) {t t' t'' : Table key}
    (first : Grows R t t') (second : Grows R t' t'') : Grows R t t'' := fun k r found => by
  obtain ⟨r', found', related⟩ := first k r found
  obtain ⟨r'', found'', related'⟩ := second k r' found'
  exact ⟨r'', found'', transitive related related'⟩

theorem Grows.mono {S : ρ → ρ → Prop} (weaker : ∀ r r', R r r' → S r r') {t t' : Table key}
    (grows : Grows R t t') : Grows S t t' := fun k r found => by
  obtain ⟨r', found', related⟩ := grows k r found
  exact ⟨r', found', weaker r r' related⟩

theorem grows_update (reflexive : ∀ r, R r r) {t : Table key} {r : ρ}
    (related : ∀ old, t.find? (key r) = some old → R old r) : Grows R t (t.update r) :=
  fun k old found => by
    rw [find?_update]
    by_cases here : key r = k
    · subst here
      exact ⟨r, by simp [found], related old found⟩
    · exact ⟨old, by simp [here, found], reflexive old⟩

theorem grows_insert (reflexive : ∀ r, R r r) {t t' : Table key} {r : ρ}
    (inserted : t.insert r = some t') : Grows R t t' := fun k old found => by
  rw [find?_insert inserted]
  by_cases here : key r = k
  · subst here
    have missing : t.find? (key r) = none := find?_eq_none.mpr (insert_eq_none.not.mp (by simp [inserted]))
    simp [missing] at found
  · exact ⟨old, by simp [here, found], reflexive old⟩

end Table
