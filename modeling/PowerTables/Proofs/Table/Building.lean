import PowerTables.Proofs.Table.Bounds

/-!
# Tables that are built

A table starts with its rows and no columns, and is then changed, one change after another, where
a join reads another table that was built in the same way.  Rows and columns stand in lists of
their own, and a new row is pushed into each column before its key comes to the index; still every
column is as long as the index after each change, whether it failed or not.  No change of such a
table reads past the end of a column, and only a join that fails leaves anything behind.

## Main definitions

* `Table.pushRowInPlace` : a new row, pushed cell by cell.
* `Table.Change` : the changes, with `Table.Change.run` to carry them out.
* `Table.Built` : the tables that can be built.
* `Table.KeepsTypes` : no column of a table has another type in a later one.

## Main results

* `Table.pushRowInPlace_eq` : once a row was checked, all its cells are taken.
* `Table.Change.wellFormed_after`, `Table.Change.keepsTypes_after` : what a change keeps.
* `Table.Change.of_run_eq_error` : how a change fails.
* `Table.built_iff` : the tables that can be built are those that are well-formed.
* `Table.built_invariant` : what holds of built tables and of runs of changes.
-/

namespace PowerTables

/-! ### New rows, cell by cell -/

/-- Appends a cell, which has to be of the type of the column. -/
def Column.push (col : Column) (cell : Cell) : Except TableError Column :=
  match cell.as? col.type with
  | some value => .ok { col with values := col.values ++ [value] }
  | none => .error (.storeType cell.type col.type)

theorem Column.push_eq {col : Column} {cell : Cell} (h : col.type = cell.type) :
    col.push cell = .ok (col.append cell) := by
  obtain ⟨type, value⟩ := cell
  obtain rfl : col.type = type := h
  rw [push, append, Cell.as?_self]

namespace Table

/-- Appends a cell to the column at a position; past the last column there is nothing to do. -/
def pushCell (position : Nat) (cell : Cell) : EStateM TableError Table Unit :=
  step fun t => match t.columns[position]? with
    | none => .ok t
    | some col =>
      (col.push cell).map fun col => { t with columns := t.columns.set position col }

/-- Appends a row, cell by cell, and its key after that. -/
def pushRowInPlace (key : RowKey) (cells : List Cell) : EStateM TableError Table Unit := do
  let t ← get
  if (t.position? key).isSome then throw (.duplicateRow key)
  else if cells.length ≠ t.columns.length then
    throw (.rowLength key cells.length t.columns.length)
  else match (t.columns.zip cells).find? fun (c, cell) => c.type ≠ cell.type with
    | some (c, cell) => throw (.rowType key c.name c.type cell.type)
    | none => do
      cells.zipIdx.forM fun (cell, position) => pushCell position cell
      modify fun t => { t with index := t.index ++ [key] }

/-- The cells of a row are pushed from the left to the right. -/
theorem pushCells_eq (index : List RowKey) (done rest : List Column) (cells : List Cell)
    (hlength : rest.length = cells.length)
    (htypes : ∀ e ∈ rest.zip cells, e.1.type = e.2.type) :
    ((cells.zipIdx done.length).forM fun (cell, position) => pushCell position cell)
        ⟨index, done ++ rest⟩ =
      .ok () ⟨index, done ++ rest.zipWith Column.append cells⟩ := by
  induction cells generalizing done rest with
  | nil =>
    obtain rfl := List.eq_nil_of_length_eq_zero hlength
    rfl
  | cons cell cells ih =>
    obtain ⟨col, rest, rfl⟩ := List.exists_cons_of_length_eq_add_one hlength
    -- the cell goes to the first column of the rest, which then counts as done
    have hpush : pushCell done.length cell ⟨index, done ++ col :: rest⟩ =
        .ok () ⟨index, (done ++ [col.append cell]) ++ rest⟩ := by
      refine step_ok ?_
      simp [Column.push_eq (htypes (col, cell) (by simp)), Except.map]
    have hrest := ih (done ++ [col.append cell]) rest (by simpa using hlength)
      fun e he => htypes e (by simp [he])
    rw [List.length_append, List.length_singleton] at hrest
    rw [List.zipIdx_cons]
    refine (run_bind_of_ok hpush).trans (hrest.trans ?_)
    simp

/-- Once the lengths and types were checked, every cell of a row is taken. -/
theorem pushRowInPlace_eq (key : RowKey) (cells : List Cell) (t : Table) :
    pushRowInPlace key cells t = step (fun t => t.pushRow key cells) t := by
  rw [pushRowInPlace, run_get_bind, step, atOnce, Table.pushRow]
  split
  · rfl
  split
  · rfl
  next _ hlength =>
  rw [not_not] at hlength
  cases hfind : (t.columns.zip cells).find? fun (c, cell) => c.type ≠ cell.type with
  | some e => rfl
  | none =>
    have hpush := pushCells_eq t.index [] t.columns cells hlength.symm fun e he => by
      simpa using List.find?_eq_none.mp hfind e he
    exact run_bind_of_ok hpush

/-! ### Changes -/

/-- Brings columns of another table in.  What was added before a failure stays. -/
def joinInPlace (source : Table) (names : List String) : EStateM TableError Table Unit := fun t =>
  match (t.join source names).failure with
  | none => .ok () (t.join source names).table
  | some e => .error e (t.join source names).table

/-- A change of a table.  Rows are chosen by a condition that may remember what it was asked. -/
inductive Change
  | insertColumn (c : Column)
  | removeColumn (name : String)
  | setCell (key : RowKey) (name : String) (cell : Cell)
  | pushRow (key : RowKey) (cells : List Cell)
  | select (names : List String)
  | filterRows (keep : Nat → RowKey → Bool)
  | join (source : Table) (names : List String)

namespace Change

/-- The other table that a change reads. -/
def source? : Change → Option Table
  | join source _ => some source
  | _ => none

/-- Carries a change out. -/
def run : Change → EStateM TableError Table Unit
  | insertColumn c => step fun t => t.insertColumn c
  | removeColumn name => modify fun t => t.removeColumn name
  | setCell key name cell => step fun t => t.setCell key name cell
  | pushRow key cells => pushRowInPlace key cells
  | select names => step fun t => t.select names
  | filterRows keep => step fun t => t.filterRowsBy keep
  | join source names => joinInPlace source names

end Change

/-- The table that some changes leave, each of which may fail. -/
def afterAll (t : Table) (changes : List Change) : Table :=
  changes.foldl (fun t change => stateAfter change.run t) t

/-- The type of the first column of a name. -/
def typeOf? (t : Table) (name : String) : Option CellType := (t.column? name).map (·.type)

/-- A column of a table whose name another one has is of the type that it has there. -/
def KeepsTypes (t u : Table) : Prop :=
  ∀ c ∈ u.columns, c.name ∈ t.columnNames → (c.name, c.type) ∈ t.signature

variable {t u source : Table} {change : Change} {name : String}

theorem keepsTypes_of_subset (h : u.signature ⊆ t.signature) : KeepsTypes t u :=
  fun _ hc _ => h (List.mem_map_of_mem hc)

theorem keepsTypes_of_signature (h : u.signature = t.signature) : KeepsTypes t u :=
  keepsTypes_of_subset (h ▸ List.Subset.refl _)

/-- Columns of new names may be of any type. -/
theorem keepsTypes_append {new : List Column} (h : ∀ c ∈ new, c.name ∉ t.columnNames) :
    KeepsTypes t ⟨t.index, t.columns ++ new⟩ := by
  intro c hc hname
  rcases List.mem_append.mp hc with hc | hc
  · exact List.mem_map_of_mem hc
  · exact absurd hname (h c hc)

theorem KeepsTypes.typeOf?_eq (h : KeepsTypes t u) (ht : t.columnNames.Nodup)
    (hname : name ∈ t.columnNames) (hname' : name ∈ u.columnNames) :
    u.typeOf? name = t.typeOf? name := by
  obtain ⟨c, hc⟩ := exists_column?_of_mem hname'
  obtain ⟨hmem, rfl⟩ := mem_of_column? hc
  obtain ⟨d, hd, heq⟩ := List.mem_map.mp (h c hmem hname)
  obtain ⟨hdname, hdtype⟩ := Prod.mk.inj heq
  rw [typeOf?, typeOf?, hc, ← hdname, column?_of_mem ht hd, Option.map_some, Option.map_some,
    hdtype]

/-! ### What a change keeps -/

theorem stateAfter_join (t source : Table) (names : List String) :
    stateAfter (Change.join source names).run t = (t.join source names).table := by
  cases h : (t.join source names).failure with
  | none => exact stateAfter_ok (by rw [Change.run, joinInPlace, h])
  | some e => exact stateAfter_error (by rw [Change.run, joinInPlace, h])

theorem stateAfter_pushRow (t : Table) (key : RowKey) (cells : List Cell) :
    stateAfter (Change.pushRow key cells).run t =
      stateAfter (step fun t => t.pushRow key cells) t := by
  rw [stateAfter, stateAfter, Change.run, pushRowInPlace_eq]

namespace Change

/-- A change leaves a well-formed table, whether it fails or not. -/
theorem wellFormed_after (ht : t.WellFormed) (hsource : ∀ source ∈ change.source?,
    source.WellFormed) : (stateAfter change.run t).WellFormed := by
  cases change with
  | insertColumn c =>
    exact stateAfter_step ht fun u hu => (ht.insertColumn_eq_ok_iff.mp hu).2
  | removeColumn name => exact ht.removeColumn name
  | setCell key name cell =>
    exact stateAfter_step ht fun u hu => ht.sameShape (setCell_spec hu).1
  | pushRow key cells =>
    rw [stateAfter_pushRow]
    exact stateAfter_step ht fun u hu => ht.pushRow hu
  | select names => exact stateAfter_step ht fun u hu => (select_eq_ok_iff.mp hu).2.2
  | filterRows keep =>
    exact stateAfter_step ht fun u hu => filterRowsBy_spec hu ▸ ht.rowsWhere _
  | join source names =>
    rw [stateAfter_join, join_outcome (hsource source rfl).rectangular]
    exact ht.joined_added source names

/-- A change leaves no column with another type. -/
theorem keepsTypes_after (hsource : ∀ source ∈ change.source?, source.WellFormed) (t : Table) :
    KeepsTypes t (stateAfter change.run t) := by
  have hself : KeepsTypes t t := keepsTypes_of_signature rfl
  cases change with
  | insertColumn c =>
    refine stateAfter_step hself fun u hu => ?_
    obtain ⟨hname, -, rfl⟩ := insertColumn_eq_ok_iff.mp hu
    exact keepsTypes_append (List.forall_mem_singleton.mpr hname)
  | removeColumn name =>
    exact keepsTypes_of_subset (List.eraseP_sublist.map _).subset
  | setCell key name cell =>
    exact stateAfter_step hself fun u hu =>
      keepsTypes_of_signature (setCell_spec hu).1.signature
  | pushRow key cells =>
    rw [stateAfter_pushRow]
    exact stateAfter_step hself fun u hu => keepsTypes_of_signature (signature_pushRow hu)
  | select names =>
    refine stateAfter_step hself fun u hu c hc _ => ?_
    obtain ⟨-, hcolumns, -⟩ := select_eq_ok_iff.mp hu
    obtain ⟨name, -, hname⟩ := List.mem_map.mp (hcolumns ▸ List.mem_map_of_mem hc)
    exact List.mem_map_of_mem (mem_of_column? hname).1
  | filterRows keep =>
    refine stateAfter_step hself fun u hu => keepsTypes_of_signature ?_
    rw [filterRowsBy_spec hu, signature_rowsWhere]
  | join source names =>
    rw [stateAfter_join, join_outcome (hsource source rfl).rectangular]
    refine keepsTypes_append fun c hc => ?_
    obtain ⟨name, hname, hjoined⟩ := List.mem_filterMap.mp hc
    rw [(joinedColumn?_spec hjoined).1]
    exact (mem_lacking.mp hname).2

/-- A change of a well-formed table does not fail for an access past the end of a column, and
what fails leaves the table, unless it is a join. -/
theorem of_run_eq_error (ht : t.WellFormed) (hsource : ∀ source ∈ change.source?,
    source.WellFormed) {e : TableError} (h : change.run t = .error e u) :
    ¬e.IsOutside ∧ (change.source? = none → u = t) := by
  cases change with
  | insertColumn c =>
    obtain ⟨he, hu⟩ := step_eq_error.mp h
    exact ⟨not_isOutside_of_insertColumn he, fun _ => hu⟩
  | removeColumn name => cases h
  | setCell key name cell =>
    obtain ⟨he, hu⟩ := step_eq_error.mp h
    exact ⟨not_isOutside_of_setCell ht.rectangular.isComplete he, fun _ => hu⟩
  | pushRow key cells =>
    obtain ⟨he, hu⟩ := step_eq_error.mp ((pushRowInPlace_eq key cells t).symm.trans h)
    exact ⟨not_isOutside_of_pushRow he, fun _ => hu⟩
  | select names =>
    obtain ⟨he, hu⟩ := step_eq_error.mp h
    exact ⟨not_isOutside_of_select he, fun _ => hu⟩
  | filterRows keep =>
    obtain ⟨he, -⟩ := step_eq_error.mp h
    cases he.symm.trans (filterRowsBy_eq ht.rectangular keep)
  | join source names =>
    refine ⟨?_, nofun⟩
    rw [run, joinInPlace] at h
    split at h
    · cases h
    · next hfailure =>
      obtain ⟨rfl, -⟩ := EStateM.Result.error.inj h
      exact not_isOutside_of_join (hsource source rfl).rectangular.isComplete hfailure

/-- A row is pushed under a new key only. -/
theorem of_run_pushRow_eq_ok {key : RowKey} {cells : List Cell}
    (h : (pushRow key cells).run t = .ok () u) : key ∉ t.index ∧ u.index = t.index ++ [key] := by
  have hstep := (pushRowInPlace_eq key cells t).symm.trans h
  cases hpush : t.pushRow key cells with
  | ok v =>
    obtain ⟨-, rfl⟩ := EStateM.Result.ok.inj ((step_ok hpush).symm.trans hstep)
    exact ⟨(pushRow_spec hpush).1, (pushRow_spec hpush).2.1⟩
  | error e => cases (step_eq_error.mpr ⟨hpush, rfl⟩).symm.trans hstep

end Change

/-! ### Built tables -/

/-- The tables that changes make of rows without columns, where every other table that is read
was built as well. -/
inductive Built : Table → Prop
  | ofIndex (index : List RowKey) : Built (ofIndex index)
  | after {t : Table} {change : Change} (ht : Built t)
    (hsource : ∀ source ∈ change.source?, Built source) : Built (stateAfter change.run t)

theorem Built.wellFormed (ht : t.Built) : t.WellFormed := by
  induction ht with
  | ofIndex index => exact wellFormed_ofIndex index
  | after _ _ ih ihsource => exact Change.wellFormed_after ih ihsource

/-- Well-formed is all that a built table is: such a table is built column by column. -/
theorem built_iff : t.Built ↔ t.WellFormed := by
  refine ⟨Built.wellFormed, fun ht => ?_⟩
  obtain ⟨index, columns⟩ := t
  induction columns using List.reverseRecOn with
  | nil => exact .ofIndex index
  | append_singleton columns c ih =>
    have hbefore : WellFormed ⟨index, columns⟩ := ht.of_sublist (List.sublist_append_left _ _)
    have hinsert : insertColumn ⟨index, columns⟩ c = .ok ⟨index, columns ++ [c]⟩ :=
      hbefore.insertColumn_eq_ok_iff.mpr ⟨rfl, ht⟩
    have hafter : stateAfter (Change.insertColumn c).run ⟨index, columns⟩ =
        ⟨index, columns ++ [c]⟩ := stateAfter_ok (step_ok hinsert)
    exact hafter ▸ .after (ih hbefore) nofun

theorem Built.afterAll (ht : t.Built) {changes : List Change}
    (hsources : ∀ change ∈ changes, ∀ source ∈ change.source?, source.Built) :
    (t.afterAll changes).Built := by
  induction changes generalizing t with
  | nil => exact ht
  | cons change changes ih =>
    obtain ⟨hsource, hrest⟩ := List.forall_mem_cons.mp hsources
    exact ih (.after ht hsource) hrest

/-- A column that is there after every change of a run is of one type all the time. -/
theorem Built.typeOf?_afterAll (ht : t.Built) {changes : List Change}
    (hsources : ∀ change ∈ changes, ∀ source ∈ change.source?, source.Built)
    (hname : ∀ n ≤ changes.length, name ∈ (t.afterAll (changes.take n)).columnNames) :
    (t.afterAll changes).typeOf? name = t.typeOf? name := by
  induction changes generalizing t with
  | nil => rfl
  | cons change changes ih =>
    obtain ⟨hsource, hrest⟩ := List.forall_mem_cons.mp hsources
    have hstep : (stateAfter change.run t).typeOf? name = t.typeOf? name :=
      (Change.keepsTypes_after (fun source h => (hsource source h).wellFormed) t).typeOf?_eq
        ht.wellFormed.names (hname 0 (Nat.zero_le _)) (hname 1 (Nat.le_add_left _ _))
    refine (ih (.after ht hsource) hrest fun n hn => ?_).trans hstep
    exact hname (n + 1) (Nat.succ_le_succ hn)

/-- A built table is well-formed.  Its changes read no cell past the end of a column, and those
that fail leave it as it is, unless they are joins; a row comes under a new key; and runs of
changes leave built tables, in which no column that stayed has another type. -/
theorem built_invariant (ht : t.Built) :
    t.WellFormed ∧
      (∀ change : Change, (∀ source ∈ change.source?, source.Built) →
        ∀ e u, change.run t = .error e u → ¬e.IsOutside ∧ (change.source? = none → u = t)) ∧
      (∀ key cells u, (Change.pushRow key cells).run t = .ok () u →
        key ∉ t.index ∧ u.index = t.index ++ [key]) ∧
      ∀ changes : List Change,
        (∀ change ∈ changes, ∀ source ∈ change.source?, source.Built) →
          (t.afterAll changes).WellFormed ∧
            ∀ name, (∀ n ≤ changes.length, name ∈ (t.afterAll (changes.take n)).columnNames) →
              (t.afterAll changes).typeOf? name = t.typeOf? name :=
  ⟨ht.wellFormed,
    fun _ hsource _ _ he =>
      Change.of_run_eq_error ht.wellFormed (fun source h => (hsource source h).wellFormed) he,
    fun _ _ _ hu => Change.of_run_pushRow_eq_ok hu,
    fun _ hsources =>
      ⟨(ht.afterAll hsources).wellFormed, fun _ hname => ht.typeOf?_afterAll hsources hname⟩⟩

/-- Two rows with a column of integers; a second column of its name was refused. -/
def twoRows : Table :=
  (ofIndex [.plain "A", .plain "B"]).afterAll
    [.insertColumn ⟨"p", .int, [1, 2]⟩, .insertColumn ⟨"p", .string, ["x", "y"]⟩]

theorem built_invariant_twoRows : twoRows.Built ∧ twoRows.WellFormed ∧
    (∃ e u, (Change.setCell (.plain "A") "p" (.ofBool true)).run twoRows = .error e u ∧
      ¬e.IsOutside ∧ u = twoRows) ∧
    (∃ u, (Change.pushRow (.plain "C") [.ofInt 3]).run twoRows = .ok () u ∧
      u.index = twoRows.index ++ [.plain "C"]) ∧
    (twoRows.afterAll [.filterRows fun p _ => p == 1]).typeOf? "p" = twoRows.typeOf? "p" := by
  have ht : twoRows.Built := .afterAll (.ofIndex _) (by simp [Change.source?])
  obtain ⟨hwf, hfails, hpushes, hruns⟩ := built_invariant ht
  have hrefused : (Change.setCell (.plain "A") "p" (.ofBool true)).run twoRows =
      .error (.storeType .boolean .int) _ := rfl
  have hreads : ∀ source ∈ (Change.setCell (.plain "A") "p" (.ofBool true)).source?,
      source.Built := nofun
  have hpushed : (Change.pushRow (.plain "C") [.ofInt 3]).run twoRows = .ok () _ := rfl
  obtain ⟨hinside, hkept⟩ := hfails _ hreads _ _ hrefused
  refine ⟨ht, hwf, ⟨_, _, hrefused, hinside, hkept rfl⟩,
    ⟨_, hpushed, (hpushes _ _ _ hpushed).2⟩, ?_⟩
  refine (hruns [.filterRows fun p _ => p == 1] (by simp [Change.source?])).2 "p" ?_
  decide

end Table

end PowerTables
