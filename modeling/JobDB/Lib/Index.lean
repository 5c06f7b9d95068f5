import JobDB.Lib.Table

/-!
# A secondary index

Rows of a table are found through a list of index entries, each of which has an owner, the key of
the row it was made for. A row that is written has its old entries dropped and its new ones put in.

`Indexed` says that the index is exact: it has the entries of the rows in the table and no others,
each once. Writing rows keeps it (`Indexed.write`), however often a row is written over.
-/

namespace JobDB

variable {K V E : Type} [DecidableEq K]

/-- The index has exactly the entries of the rows, each once. -/
structure Indexed (owner : E → K) (entries : V → List E) (rows : Table K V) (index : List E) :
    Prop where
  mem : ∀ e, e ∈ index ↔ ∃ v, rows.lookup (owner e) = some v ∧ e ∈ entries v
  nodup : index.Nodup

namespace Indexed

variable {owner : E → K} {entries : V → List E} {rows : Table K V} {index : List E}

theorem empty : Indexed owner entries (∅ : Table K V) [] where
  mem e := by
    constructor
    · intro h
      cases h
    · rintro ⟨v, h, -⟩
      cases h
  nodup := List.nodup_nil

/-- A row is written, and its entries are made anew. -/
theorem write (h : Indexed owner entries rows index) {k : K} {v : V}
    (owned : ∀ e ∈ entries v, owner e = k) (distinct : (entries v).Nodup) :
    Indexed owner entries (rows.insert k v) (index.filter (owner · ≠ k) ++ entries v) where
  mem e := by
    rw [List.mem_append, List.mem_filter, Table.lookup_insert_eq]
    by_cases hk : owner e = k
    · rw [if_pos hk]
      constructor
      · rintro (⟨-, hne⟩ | he)
        · exact absurd hk (of_decide_eq_true hne)
        · exact ⟨v, rfl, he⟩
      · rintro ⟨v', hv, he⟩
        exact .inr (Option.some.inj hv ▸ he)
    · rw [if_neg hk, h.mem]
      constructor
      · rintro (⟨he, -⟩ | he)
        · exact he
        · exact absurd (owned e he) hk
      · exact fun he => .inl ⟨he, decide_eq_true hk⟩
  nodup := by
    refine List.Nodup.append (h.nodup.filter _) distinct ?_
    intro e hold hnew
    exact of_decide_eq_true (List.mem_filter.mp hold).2 (owned e hnew)

/-- What is found through the index: the rows that have an entry with `p`. -/
theorem mem_found (h : Indexed owner entries rows index) {p : E → Bool} {v : V} :
    v ∈ (index.filter p).filterMap (fun e => rows.lookup (owner e)) ↔
      ∃ e, p e = true ∧ e ∈ entries v ∧ rows.lookup (owner e) = some v := by
  rw [List.mem_filterMap]
  constructor
  · rintro ⟨e, he, hv⟩
    obtain ⟨hmem, hp⟩ := List.mem_filter.mp he
    obtain ⟨v', hv', hentry⟩ := (h.mem e).mp hmem
    obtain rfl : v' = v := Option.some.inj (hv'.symm.trans hv)
    exact ⟨e, hp, hentry, hv⟩
  · rintro ⟨e, hp, hentry, hv⟩
    exact ⟨e, List.mem_filter.mpr ⟨(h.mem e).mpr ⟨v, hv, hentry⟩, hp⟩, hv⟩

end Indexed

end JobDB
