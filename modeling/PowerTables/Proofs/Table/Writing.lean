import Mathlib.Data.List.Induction
import PowerTables.Network.Edit
import PowerTables.Proofs.Table.Cells

/-!
# Writing cells

Cells are written one after another, each to the row of a key.  No write changes the rows or
the columns of a table, so what a list of writes does is told by its cells alone: in the column
that is written, a row ends up with the last cell given for it, and everything else stays
(`Table.cellAt?_setCells`).

## Main definitions

* `Table.SameShape` : two tables with the same rows and the same columns.
* `Table.lastFor?` : the last cell that some entries give to a row.

## Main results

* `Table.setCell_spec`, `Table.cellAt?_setCells` : the cells after one write and after many.
* `Table.exists_setCells` : writes of the right type to known rows succeed.
-/

namespace PowerTables

namespace Column

/-- A write that is not refused replaces one cell by a cell of the type of the column. -/
theorem setCell_spec {c d : Column} {p : Nat} {cell : Cell} (h : c.setCell p cell = .ok d) :
    (d.name, d.type, d.length) = (c.name, c.type, c.length) ∧
      p < c.length ∧ cell.type = c.type ∧
        ∀ q, d.cell? q = if q = p then some cell else c.cell? q := by
  obtain ⟨name, type, values⟩ := c
  obtain ⟨type', value⟩ := cell
  rw [setCell] at h
  split at h
  · cases h
  · next hp =>
    rw [Nat.not_le] at hp
    by_cases htype : type' = type
    · subst htype
      rw [Cell.as?_self] at h
      obtain rfl := Except.ok.inj h
      have hp' : p < values.length := hp
      refine ⟨by simp [length], hp, rfl, fun q => ?_⟩
      by_cases hq : q = p
      · subst hq
        simp [cell?, hp']
      · simp [cell?, hq, List.getElem?_set_ne (Ne.symm hq)]
    · rw [Cell.as?_eq_none htype] at h
      cases h

theorem exists_setCell {c : Column} {p : Nat} {cell : Cell} (hp : p < c.length)
    (htype : cell.type = c.type) : ∃ d, c.setCell p cell = .ok d := by
  obtain ⟨type, value⟩ := cell
  obtain rfl : type = c.type := htype
  exact ⟨_, by rw [setCell, if_neg (Nat.not_le.mpr hp), Cell.as?_self]⟩

end Column

namespace Table

/-! ### Tables of one shape -/

/-- The names, types and lengths of the columns, in order. -/
def shape (t : Table) : List (String × CellType × Nat) :=
  t.columns.map fun c => (c.name, c.type, c.length)

/-- A table has the rows of another one, and columns of the same names, types and lengths. -/
structure SameShape (t u : Table) : Prop where
  index : u.index = t.index
  shape : u.shape = t.shape

namespace SameShape

variable {t u v : Table}

theorem refl (t : Table) : SameShape t t := ⟨rfl, rfl⟩

theorem symm (h : SameShape t u) : SameShape u t := ⟨h.index.symm, h.shape.symm⟩

theorem trans (h : SameShape t u) (h' : SameShape u v) : SameShape t v :=
  ⟨h'.index.trans h.index, h'.shape.trans h.shape⟩

theorem signature (h : SameShape t u) : u.signature = t.signature := by
  have := congrArg (List.map fun e : String × CellType × Nat => (e.1, e.2.1)) h.shape
  simpa [Table.shape, Table.signature, Function.comp_def] using this

theorem columnNames (h : SameShape t u) : u.columnNames = t.columnNames :=
  columnNames_of_signature h.signature

theorem exists_column? (h : SameShape t u) {name : String} {c : Column}
    (hc : t.column? name = some c) :
    ∃ d, u.column? name = some d ∧ d.type = c.type ∧ d.length = c.length := by
  have hfind (v : Table) : v.shape.find? (·.1 == name) =
      (v.column? name).map fun c => (c.name, c.type, c.length) := by
    rw [Table.shape, List.find?_map]
    rfl
  have hu := hfind u
  rw [h.shape, hfind, hc, Option.map_some] at hu
  obtain ⟨d, hd, heq⟩ := Option.map_eq_some_iff.mp hu.symm
  exact ⟨d, hd, congrArg (·.2.1) heq, congrArg (·.2.2) heq⟩

theorem position? (h : SameShape t u) (key : RowKey) : u.position? key = t.position? key := by
  rw [Table.position?, Table.position?, h.index]

theorem isRectangular (h : SameShape t u) (ht : t.IsRectangular) : u.IsRectangular := by
  intro c hc
  have hmem : (c.name, c.type, c.length) ∈ t.shape := h.shape ▸ List.mem_map_of_mem hc
  obtain ⟨d, hd, heq⟩ := List.mem_map.mp hmem
  have hlength : d.length = c.length := congrArg (·.2.2) heq
  rw [← hlength, ht d hd, size, size, h.index]

end SameShape

/-! ### One cell -/

theorem setColumn_name {t : Table} {name : String} {d : Column} (hd : d.name = name) :
    ∀ c, t.column? c.name = some c → (if c.name = name then d else c).name = c.name := by
  intro c _
  split
  · next h => rw [hd, h]
  · rfl

theorem column?_mapColumn {t : Table} {name : String} {d : Column} (hd : d.name = name)
    (other : String) :
    (t.mapColumn name fun _ => d).column? other =
      (t.column? other).map fun c => if other = name then d else c := by
  rw [mapColumn_eq_mapFirst, column?_mapFirst (setColumn_name hd)]
  cases hc : t.column? other with
  | none => rfl
  | some c => rw [Option.map_some, Option.map_some, (mem_of_column? hc).2]

theorem shape_mapColumn {t : Table} {name : String} {c d : Column} (hc : t.column? name = some c)
    (h : (d.name, d.type, d.length) = (c.name, c.type, c.length)) :
    (t.mapColumn name fun _ => d).shape = t.shape := by
  rw [mapColumn_eq_mapFirst]
  refine map_mapFirst _ fun c' hc' => ?_
  by_cases hname : c'.name = name
  · rw [hname, hc] at hc'
    rw [if_pos hname, ← Option.some.inj hc']
    exact h
  · rw [if_neg hname]

/-- A write that is not refused goes to a known row and a known column, and replaces this one
cell by a cell of the type of the column. -/
theorem setCell_spec {t u : Table} {key : RowKey} {name : String} {cell : Cell}
    (h : t.setCell key name cell = .ok u) :
    SameShape t u ∧ ∃ p, t.position? key = some p ∧
      ∀ q other, u.cellAt? q other =
        if other = name ∧ q = p then some cell else t.cellAt? q other := by
  rw [setCell] at h
  cases hp : t.position? key with
  | none => simp [hp] at h
  | some p =>
    simp only [hp, setAt] at h
    cases hc : t.column? name with
    | none => simp [hc] at h
    | some c =>
      simp only [hc] at h
      cases hd : c.setCell p cell with
      | error e => simp [hd, Except.map] at h
      | ok d =>
        simp only [hd, Except.map, Except.ok.injEq] at h
        subst h
        obtain ⟨hshape, -, -, hcells⟩ := Column.setCell_spec hd
        have hname : d.name = name :=
          (congrArg Prod.fst hshape).trans (mem_of_column? hc).2
        refine ⟨⟨rfl, shape_mapColumn hc hshape⟩, p, rfl, fun q other => ?_⟩
        by_cases hother : other = name
        · subst hother
          have hcolumn : (t.mapColumn other fun _ => d).column? other = some d := by
            rw [column?_mapColumn hname, hc, Option.map_some, if_pos rfl]
          rw [cellAt?_of_column? hcolumn, hcells, cellAt?_of_column? hc]
          simp
        · rw [cellAt?, column?_mapColumn hname]
          simp [hother, cellAt?]

theorem exists_setCell {t : Table} {key : RowKey} {name : String} {cell : Cell} {c : Column}
    {p : Nat} (hp : t.position? key = some p) (hc : t.column? name = some c)
    (hlength : p < c.length) (htype : cell.type = c.type) :
    ∃ u, t.setCell key name cell = .ok u := by
  obtain ⟨d, hd⟩ := Column.exists_setCell hlength htype
  refine ⟨t.mapColumn name fun _ => d, ?_⟩
  simp [setCell, setAt, hp, hc, hd, Except.map]

/-! ### Many cells -/

/-- The last cell that some entries give to the row at a position. -/
def lastFor? (t : Table) (entries : List (RowKey × Cell)) (p : Nat) : Option Cell :=
  (entries.reverse.find? fun e => t.position? e.1 == some p).map (·.2)

theorem lastFor?_append_singleton (t : Table) (entries : List (RowKey × Cell)) (key : RowKey)
    (cell : Cell) (p : Nat) :
    t.lastFor? (entries ++ [(key, cell)]) p =
      if t.position? key = some p then some cell else t.lastFor? entries p := by
  rw [lastFor?, List.reverse_append, List.reverse_singleton, List.singleton_append]
  by_cases h : t.position? key = some p
  · rw [if_pos h, List.find?_cons_of_pos (by simpa using h), Option.map_some]
  · rw [if_neg h, List.find?_cons_of_neg (by simpa using h), lastFor?]

theorem mem_of_lastFor? {t : Table} {entries : List (RowKey × Cell)} {p : Nat} {cell : Cell}
    (h : t.lastFor? entries p = some cell) :
    ∃ key, (key, cell) ∈ entries ∧ t.position? key = some p := by
  obtain ⟨⟨key, cell'⟩, hfind, rfl⟩ := Option.map_eq_some_iff.mp h
  exact ⟨key, List.mem_reverse.mp (List.mem_of_find?_eq_some hfind),
    by simpa using List.find?_some hfind⟩

/-- The last cell for a row, among those at the positions that satisfy a condition. -/
theorem lastFor?_pick_eq_some_iff {t : Table} {keys : List RowKey} {cells : List Cell}
    {keep : Nat → Bool} {p : Nat} {cell : Cell} :
    t.lastFor? (pick keep (keys.zip cells)) p = some cell ↔ ∃ q key, keys[q]? = some key ∧
      cells[q]? = some cell ∧ keep q = true ∧ t.position? key = some p ∧
      ∀ r key' cell', q < r → keys[r]? = some key' → cells[r]? = some cell' → keep r = true →
        t.position? key' ≠ some p := by
  rw [lastFor?, Option.map_eq_some_iff]
  simp only [find?_reverse_pick_eq_some_iff, List.getElem?_zip_eq_some]
  constructor
  · rintro ⟨⟨key, cell⟩, ⟨q, ⟨hkey, hcell⟩, hkeep, hp, hlast⟩, rfl⟩
    exact ⟨q, key, hkey, hcell, hkeep, by simpa using hp, fun r key' cell' hr hkey' hcell' hkeep' =>
      by simpa using hlast r (key', cell') hr ⟨hkey', hcell'⟩ hkeep'⟩
  · rintro ⟨q, key, hkey, hcell, hkeep, hp, hlast⟩
    refine ⟨(key, cell), ⟨q, ⟨hkey, hcell⟩, hkeep, by simpa using hp, ?_⟩, rfl⟩
    rintro r ⟨key', cell'⟩ hr ⟨hkey', hcell'⟩ hkeep'
    simpa using hlast r key' cell' hr hkey' hcell' hkeep'

theorem lastFor?_zip_eq_some_iff {t : Table} {keys : List RowKey} {cells : List Cell} {p : Nat}
    {cell : Cell} :
    t.lastFor? (keys.zip cells) p = some cell ↔ ∃ (q : Nat) (key : RowKey), keys[q]? = some key ∧
      cells[q]? = some cell ∧ t.position? key = some p ∧
      ∀ (r : Nat) (key' : RowKey) (cell' : Cell), q < r → keys[r]? = some key' →
        cells[r]? = some cell' → t.position? key' ≠ some p := by
  have hpick : pick (fun _ => true) (keys.zip cells) = keys.zip cells :=
    pick_eq_self fun _ _ => rfl
  rw [← hpick, lastFor?_pick_eq_some_iff]
  simp only [true_and, forall_const]

theorem exists_lastFor? {t : Table} {entries : List (RowKey × Cell)} {p : Nat} {key : RowKey}
    {cell : Cell} (hmem : (key, cell) ∈ entries) (hp : t.position? key = some p) :
    ∃ cell', t.lastFor? entries p = some cell' := by
  rw [← Option.isSome_iff_exists, lastFor?, Option.isSome_map, List.find?_isSome]
  exact ⟨_, List.mem_reverse.mpr hmem, by simpa using hp⟩

theorem lastFor?_eq_some {t : Table} {entries : List (RowKey × Cell)} {p : Nat} {key : RowKey}
    {cell : Cell} (hmem : (key, cell) ∈ entries) (hp : t.position? key = some p)
    (hsame : ∀ e ∈ entries, t.position? e.1 = some p → e.2 = cell) :
    t.lastFor? entries p = some cell := by
  obtain ⟨cell', hlast⟩ := exists_lastFor? hmem hp
  obtain ⟨key', hmem', hp'⟩ := mem_of_lastFor? hlast
  obtain rfl : cell' = cell := hsame _ hmem' hp'
  exact hlast

theorem lastFor?_congr {t u : Table} (h : SameShape t u) (entries : List (RowKey × Cell))
    (p : Nat) : u.lastFor? entries p = t.lastFor? entries p := by
  simp only [lastFor?, h.position?]

theorem setCells_append_singleton (t : Table) (name : String) (entries : List (RowKey × Cell))
    (key : RowKey) (cell : Cell) :
    t.setCells name (entries ++ [(key, cell)]) =
      t.setCells name entries >>= fun v => v.setCell key name cell := by
  simp only [setCells, List.foldlM_append, List.foldlM_cons, List.foldlM_nil, bind_pure]

/-- After writing some entries into a column, each of its rows has the last cell given for it,
and all other cells are as before. -/
theorem cellAt?_setCells {t u : Table} {name : String} {entries : List (RowKey × Cell)}
    (h : t.setCells name entries = .ok u) :
    SameShape t u ∧ ∀ q other, u.cellAt? q other =
      if other = name then (t.lastFor? entries q).or (t.cellAt? q other)
      else t.cellAt? q other := by
  induction entries using List.reverseRecOn generalizing u with
  | nil =>
    obtain rfl : t = u := Except.ok.inj h
    exact ⟨.refl t, fun q other => by simp [lastFor?]⟩
  | append_singleton entries e ih =>
    obtain ⟨key, cell⟩ := e
    rw [setCells_append_singleton] at h
    cases hv : t.setCells name entries with
    | error e =>
      rw [hv] at h
      cases h
    | ok v =>
      obtain ⟨hshape, hcells⟩ := ih hv
      have hset : v.setCell key name cell = .ok u := by rwa [hv] at h
      obtain ⟨hshape', p, hp, hcells'⟩ := setCell_spec hset
      refine ⟨hshape.trans hshape', fun q other => ?_⟩
      rw [hcells', hcells, lastFor?_append_singleton, ← hshape.position?, hp]
      by_cases hother : other = name
      · by_cases hq : q = p
        · simp [hother, hq]
        · simp [hother, hq, Ne.symm hq]
      · simp [hother]

/-- Cells of the type of a column can be written to known rows. -/
theorem exists_setCells {t : Table} {name : String} {c : Column}
    {entries : List (RowKey × Cell)} (hc : t.column? name = some c) (hlength : c.length = t.size)
    (h : ∀ e ∈ entries, (t.position? e.1).isSome ∧ e.2.type = c.type) :
    ∃ u, t.setCells name entries = .ok u := by
  induction entries generalizing t c with
  | nil => exact ⟨t, rfl⟩
  | cons e entries ih =>
    obtain ⟨key, cell⟩ := e
    obtain ⟨hkey, htype⟩ := h _ List.mem_cons_self
    obtain ⟨p, hp⟩ := Option.isSome_iff_exists.mp hkey
    have hlt : p < c.length := by
      rw [hlength]
      exact (List.findIdx?_eq_some_iff_getElem.mp hp).1
    obtain ⟨v, hv⟩ : ∃ v, t.setCell key name cell = .ok v := exists_setCell hp hc hlt htype
    obtain ⟨hshape, -⟩ := setCell_spec hv
    obtain ⟨d, hd, hdtype, hdlength⟩ := hshape.exists_column? hc
    rw [hlength, size, ← hshape.index] at hdlength
    obtain ⟨u, hu⟩ := ih hd hdlength fun e he => by
      obtain ⟨h1, h2⟩ := h e (List.mem_cons_of_mem _ he)
      exact ⟨by rwa [hshape.position?], h2.trans hdtype.symm⟩
    refine ⟨u, ?_⟩
    change t.setCell key name cell >>= (fun t => t.setCells name entries) = .ok u
    rw [hv]
    exact hu

/-- Writing cells that are there already changes nothing. -/
theorem setCells_eq_self {t u : Table} {name : String} {entries : List (RowKey × Cell)}
    (hnames : t.columnNames.Nodup) (h : t.setCells name entries = .ok u)
    (hsame : ∀ e ∈ entries, ∀ p, t.position? e.1 = some p → t.cellAt? p name = some e.2) :
    u = t := by
  obtain ⟨hshape, hcells⟩ := cellAt?_setCells h
  refine ext_cellAt hshape.index hshape.signature (hshape.columnNames ▸ hnames) fun p other _ => ?_
  rw [hcells]
  split
  · next hother =>
    subst hother
    cases hlast : t.lastFor? entries p with
    | none => rfl
    | some cell =>
      obtain ⟨key, hmem, hp⟩ := mem_of_lastFor? hlast
      exact (hsame _ hmem p hp).symm
  · rfl

end Table

end PowerTables
