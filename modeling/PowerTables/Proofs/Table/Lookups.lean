import PowerTables.Proofs.Table.Join

/-!
# Look-ups by row key

A cell is looked up in the first row of a key, and a join takes the last one.  The two find the same
if the first and the last row of each key hold the same cells, which is so where no key is repeated.

## Main definitions

* `Table.RepeatsAlike` : the two rows of each key hold the same cells.
* `Table.JoinsAsFound` : joins bring in the cells that are found by key.

## Main results

* `Table.cellAt?_join` : what a join of any columns brings in.
* `Table.joinsAsFound_iff` : when joins bring in what is found.
-/

namespace PowerTables

theorem Cell.as?_eq_some_iff {cell : Cell} {type : CellType} {value : type.Value} :
    cell.as? type = some value ↔ cell = ⟨type, value⟩ := by
  obtain ⟨type', value'⟩ := cell
  by_cases h : type' = type
  · subst h
    simp
  · rw [as?_eq_none h]
    exact ⟨nofun, fun heq => absurd (congrArg Cell.type heq) h⟩

theorem Cell.bind_as?_eq_some_iff {cell : Option Cell} {type : CellType} {value : type.Value} :
    cell.bind (·.as? type) = some value ↔ cell = some ⟨type, value⟩ := by
  simp [Option.bind_eq_some_iff, as?_eq_some_iff]

namespace Table

variable {t source : Table} {key : RowKey} {name : String} {p q : Nat}

/-! ### Cells of keys -/

theorem IsFirstRow.cell?_eq (h : t.IsFirstRow key p) (name : String) :
    t.cell? key name = t.cellAt? p name := by
  rw [cell?_eq_bind, position?_eq_some_iff.mpr h, Option.bind_some]

theorem IsLastRow.lastCell?_eq (h : t.IsLastRow key q) (name : String) :
    t.lastCell? key name = t.cellAt? q name := by
  rw [lastCell?, lastPosition?_eq_some_iff.mpr h, Option.bind_some]

/-- The values of a column of a type are the cells of this type. -/
theorem getElem?_valuesAs?_eq_some_iff {type : CellType} {value : type.Value} :
    ((t.valuesAs? name type).getD [])[p]? = some value ↔
      t.cellAt? p name = some ⟨type, value⟩ := by
  rw [← Cell.bind_as?_eq_some_iff]
  cases hvalues : t.valuesAs? name type with
  | none => simp [bind_as?_of_valuesAs? hvalues]
  | some values =>
    have hself : (fun cell : Cell => cell.as? type) ∘ Cell.mk type = some :=
      funext (Cell.as?_self type)
    rw [cellAt?_of_valuesAs? hvalues, Option.getD_some, Option.bind_map, hself,
      Option.bind_fun_some]

theorem getElem?_doubles?_eq_some_iff {v : Float} :
    ((t.doubles? name).getD [])[p]? = some v ↔ t.cellAt? p name = some (.ofDouble v) :=
  getElem?_valuesAs?_eq_some_iff

theorem getElem?_strings?_eq_some_iff {v : String} :
    ((t.strings? name).getD [])[p]? = some v ↔ t.cellAt? p name = some (.ofString v) :=
  getElem?_valuesAs?_eq_some_iff

/-- The double of an element is the one in the first row of its plain key. -/
theorem double?_eq_some_iff {id : String} {v : Float} : t.double? id name = some v ↔
    ∃ p, t.IsFirstRow (.plain id) p ∧ t.cellAt? p name = some (.ofDouble v) := by
  rw [double?, cell?_eq_bind]
  simp only [Option.bind_eq_some_iff, position?_eq_some_iff]
  constructor
  · rintro ⟨cell, ⟨p, hp, hcell⟩, hv⟩
    obtain rfl := Cell.as?_eq_some_iff.mp hv
    exact ⟨p, hp, hcell⟩
  · rintro ⟨p, hp, hcell⟩
    exact ⟨_, ⟨p, hp, hcell⟩, Cell.as?_self .double v⟩

theorem IsRectangular.exists_cell? (ht : t.IsRectangular) (hkey : key ∈ t.index)
    (hname : name ∈ t.columnNames) : ∃ cell, t.cell? key name = some cell := by
  obtain ⟨p, hp⟩ := exists_position? hkey
  rw [position?_eq_some_iff] at hp
  rw [hp.cell?_eq]
  exact ht.isSome_cellAt? hname (List.getElem?_eq_some_iff.mp hp.1).1

/-! ### Repeated keys -/

/-- The first and the last row of each key hold the same cells. -/
def RepeatsAlike (t : Table) : Prop :=
  ∀ key p q, t.IsFirstRow key p → t.IsLastRow key q → ∀ name, t.cellAt? p name = t.cellAt? q name

/-- An unknown key or column is found by neither of the two look-ups. -/
theorem lastCell?_eq_cell?_of_notMem (h : key ∉ t.index ∨ name ∉ t.columnNames) :
    t.lastCell? key name = t.cell? key name := by
  rw [lastCell?, cell?_eq_bind]
  rcases h with hkey | hname
  · have hfirst : t.position? key = none := by
      rwa [← Option.not_isSome_iff_eq_none, isSome_position?_iff]
    have hlast : lastPosition? t.index key = none := by
      rw [Option.eq_none_iff_forall_ne_some]
      exact fun q hq => hkey (List.mem_of_getElem? (lastPosition?_eq_some_iff.mp hq).1)
    rw [hfirst, hlast, Option.bind_none]
  · simp only [cellAt?, column?_eq_none_iff.mpr hname, Option.bind_none, Option.bind_fun_none]

theorem repeatsAlike_iff :
    t.RepeatsAlike ↔ ∀ key name, t.lastCell? key name = t.cell? key name := by
  constructor
  · intro h key name
    by_cases hkey : key ∈ t.index
    · obtain ⟨p, hp⟩ := exists_position? hkey
      obtain ⟨q, hq⟩ := exists_lastPosition? hkey
      rw [position?_eq_some_iff] at hp
      rw [lastPosition?_eq_some_iff] at hq
      rw [hp.cell?_eq, hq.lastCell?_eq, h key p q hp hq name]
    · exact lastCell?_eq_cell?_of_notMem (.inl hkey)
  · intro h key p q hp hq name
    rw [← hp.cell?_eq, ← hq.lastCell?_eq, h]

theorem repeatsAlike_of_nodup (hkeys : t.index.Nodup) : t.RepeatsAlike :=
  repeatsAlike_iff.mpr (lastCell?_eq_cell? hkeys)

/-! ### Joins -/

theorem joinedCell?_of_mem (hsource : source.IsRectangular) (hname : name ∈ source.columnNames)
    (hkey : key ∈ source.index) : source.joinedCell? key name = source.lastCell? key name := by
  obtain ⟨p, hp⟩ := exists_lastPosition? hkey
  obtain ⟨cell, hcell⟩ := hsource.isSome_cellAt? hname (lastPosition?_lt hp)
  obtain ⟨col, hcol⟩ := exists_column?_of_mem hname
  rw [joinedCell?, hcol, lastCell?, hp, Option.bind_some, hcell]
  rfl

/-- A join brings in, in each column that it adds, the cells of the last rows of the keys. -/
theorem cellAt?_join (hsource : source.IsRectangular) {names : List String}
    (hname : name ∈ (t.join source names).added) (p : Nat) :
    (t.join source names).table.cellAt? p name =
      (t.index[p]?).bind (source.joinedCell? · name) := by
  rw [join_outcome hsource] at hname ⊢
  exact cellAt?_joined_of_lacking (fun _ h => (mem_added h).2.2) (lacking_added.symm ▸ hname) p

/-- Each cell that a join brings in from a table is the one that is found by its key, or a missing
one where none is found. -/
def JoinsAsFound (source : Table) : Prop :=
  ∀ (t : Table) (names : List String) (p : Nat) (key : RowKey) (name : String),
    (t.join source names).table.index[p]? = some key → name ∈ (t.join source names).added →
      ∃ col, source.column? name = some col ∧ (t.join source names).table.cellAt? p name =
        some ((source.cell? key name).getD ⟨col.type, col.type.missing⟩)

/-- A join of one column to a single row. -/
theorem join_ofIndex_singleton (hsource : source.IsRectangular)
    (hname : name ∈ source.columnNames) (key : RowKey) :
    name ∈ ((ofIndex [key]).join source [name]).added ∧
      ((ofIndex [key]).join source [name]).table.index[0]? = some key ∧
      ((ofIndex [key]).join source [name]).table.cellAt? 0 name = source.joinedCell? key name := by
  have hnames : ∀ other ∈ [name], other ∈ source.columnNames := by simpa using hname
  have hlacking : name ∈ (ofIndex [key]).lacking [name] :=
    mem_lacking.mpr ⟨List.mem_singleton_self name, nofun⟩
  rw [join_eq hsource hnames (List.nodup_singleton name)]
  refine ⟨hlacking, rfl, ?_⟩
  rw [cellAt?_joined_of_lacking (t := ofIndex [key]) hnames hlacking]
  rfl

theorem joinsAsFound_iff (hsource : source.IsRectangular) :
    source.JoinsAsFound ↔ source.RepeatsAlike := by
  rw [repeatsAlike_iff]
  constructor
  · intro h key name
    by_cases hfound : key ∈ source.index ∧ name ∈ source.columnNames
    · -- the key and the column alone are enough to tell the two look-ups apart
      obtain ⟨hkey, hname⟩ := hfound
      obtain ⟨hadded, hrow, hjoined⟩ := join_ofIndex_singleton hsource hname key
      obtain ⟨col, -, hcell⟩ := h (ofIndex [key]) [name] 0 key name hrow hadded
      obtain ⟨cell, hfirst⟩ := hsource.exists_cell? hkey hname
      rw [← joinedCell?_of_mem hsource hname hkey, ← hjoined, hcell, hfirst, Option.getD_some]
    · exact lastCell?_eq_cell?_of_notMem (not_and_or.mp hfound)
  · intro h t names p key name hkey hname
    have hadded : name ∈ t.added source names := by rwa [join_outcome hsource] at hname
    have hindex : (t.join source names).table.index = t.index := by rw [join_outcome hsource]; rfl
    obtain ⟨col, hcol⟩ := exists_column?_of_mem (mem_added hadded).2.2
    refine ⟨col, hcol, ?_⟩
    rw [cellAt?_join hsource hname, ← hindex, hkey, Option.bind_some, joinedCell?, hcol,
      Option.map_some, h]

end Table

end PowerTables
