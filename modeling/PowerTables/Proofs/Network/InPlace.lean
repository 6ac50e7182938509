import PowerTables.Proofs.Network.Calls
import PowerTables.Proofs.Network.Identity
import PowerTables.Proofs.Table.Building

/-!
# Changes in place

A network is changed where it stands, one cell after another, and a failure on the way leaves the
cells that were written before it.  Here the changes that have more than one step are spelled out
in that way: the keys of a write are resolved, then its cells are set; a new row is pushed into
each column, then its key into the index; the ends of an element are switched one by one.  Every
category has a table from the start, so none has to be put in on the way.

Where the networks are well-formed the last checks come before the first step, and no step fails.
So a change in place is the change at one stroke, and what is refused leaves the store as it is.
This does not depend on the types that the store reports for its columns.

## Main definitions

* `putBack` : how a change of a part ends for the whole.
* `Tables.writeInPlace`, `Table.setFlagsInPlace` : the changes in steps.
* `Store.Request.inPlace` : a request that is carried out in place.

## Main results

* `Tables.pushInPlace_eq`, `Tables.writeInPlace_eq`, `Tables.setConnectedInPlace_eq` : the steps
  that follow the checks do not fail.
* `Store.Request.inPlace_eq` : a request in place is the request.
* `Store.Request.unchanged_of_error` : a request that is refused changes nothing.
-/

namespace PowerTables

/-! ### Changes of a part -/

/-- How a change of a part ends for the whole.  What was done to the part stays, whether the
change failed or not. -/
def putBack {ε ε' σ τ α : Type} (put : τ → σ) (wrap : ε → ε') :
    EStateM.Result ε τ α → EStateM.Result ε' σ α
  | .ok a t => .ok a (put t)
  | .error e t => .error (wrap e) (put t)

/-! ### Cells of a column -/

theorem Batch.type_of_cells? {batch : Batch} {type : CellType} {cells : List Cell}
    (h : batch.cells? type = some cells) : ∀ cell ∈ cells, cell.type = type := by
  intro cell hcell
  unfold cells? at h
  split at h
  case h_5 => cases h
  all_goals
    obtain rfl := Option.some.inj h
    obtain ⟨value, -, rfl⟩ := List.mem_map.mp hcell
    rfl

namespace Table

/-- Sets cells of a column one after another. -/
def setCellsInPlace (column : String) (entries : List (Nat × Cell)) :
    EStateM TableError Table Unit :=
  entries.forM fun (position, cell) => step fun t => t.setAt column position cell

/-- Cells can be set at the positions of their keys, as setting cells moves no row. -/
theorem setCellsInPlace_eq {t u : Table} {column : String} {keys : List RowKey}
    {positions : List Nat} {cells : List Cell}
    (hpositions : keys.map t.position? = positions.map some)
    (h : t.setCells column (keys.zip cells) = .ok u) :
    setCellsInPlace column (positions.zip cells) t = .ok () u := by
  induction keys generalizing t positions cells with
  | nil =>
    obtain rfl := List.map_eq_nil_iff.mp hpositions.symm
    obtain rfl := Except.ok.inj h
    rfl
  | cons key keys ih =>
    obtain ⟨position, positions, rfl, hposition, hrest⟩ := List.map_eq_cons_iff.mp hpositions.symm
    cases cells with
    | nil =>
      obtain rfl := Except.ok.inj h
      rfl
    | cons cell cells =>
      obtain ⟨v, hv, hu⟩ : ∃ v, t.setCell key column cell = .ok v ∧
          v.setCells column (keys.zip cells) = .ok u := bind_eq_ok.mp h
      have hshape := (setCell_spec hv).1
      have hset : t.setAt column position cell = .ok v := by
        rwa [setCell, ← hposition] at hv
      have hsame : keys.map v.position? = positions.map some := by
        rw [hrest]
        exact List.map_congr_left fun key _ => hshape.position? key
      exact (run_bind_of_ok (step_ok hset)).trans (ih hsame hu)

/-- A failure on the way leaves the cells that were set before it. -/
example : setCellsInPlace "open" [(0, .ofBool true), (1, .ofBool true)]
      ⟨[.plain "S"], [⟨"open", .boolean, [false]⟩]⟩ =
    .error (.positionOutside 1 1) ⟨[.plain "S"], [⟨"open", .boolean, [true]⟩]⟩ := rfl

end Table

namespace Tables

/-- A change of the table of a category. -/
def inTable {α : Type} (c : Category) (op : EStateM TableError Table α) :
    EStateM NetworkError Tables α := fun ts => putBack (ts.set c) .table (op (ts c))

/-- The position of the row of a key. -/
def resolve (c : Category) (key : RowKey) : EStateM NetworkError Tables Nat := do
  match ((← get) c).position? key with
  | some position => return position
  | none => throw (.unknownElement c key.text)

/-- Writes cells into a column, each to the row of a key: resolves all keys, and sets the cells
after that. -/
def writeInPlace (c : Category) (column : String) (keys : List RowKey) (cells : List Cell) :
    EStateM NetworkError Tables Unit := do
  let positions ← keys.mapM (resolve c)
  if !((← get) c).hasColumn column then throw (.unknownColumn c column)
  else inTable c (Table.setCellsInPlace column (positions.zip cells))

variable {ts : Tables} {c : Category}

/-- A change of one table that is made at one stroke. -/
theorem inTable_eq {α : Type} {op : EStateM TableError Table α}
    {f : Table → Except TableError (α × Table)} (h : op (ts c) = atOnce f (ts c)) :
    inTable c op ts = match f (ts c) with
      | .ok (a, t) => .ok a (ts.set c t)
      | .error e => .error (.table e) ts := by
  rw [inTable, h, atOnce]
  cases f (ts c) with
  | ok r => rfl
  | error e => rw [putBack, set_eq_self]

theorem resolve_run (c : Category) (key : RowKey) (ts : Tables) :
    resolve c key ts = match (ts c).position? key with
      | some position => .ok position ts
      | none => .error (.unknownElement c key.text) ts := by
  rw [resolve, run_get_bind]
  cases (ts c).position? key <;> rfl

/-- The keys are resolved up to the first one that is unknown. -/
theorem mapM_resolve (c : Category) (keys : List RowKey) (ts : Tables) :
    match keys.find? fun key => ((ts c).position? key).isNone with
    | some key => keys.mapM (resolve c) ts = .error (.unknownElement c key.text) ts
    | none => ∃ positions, keys.map (ts c).position? = positions.map some ∧
        keys.mapM (resolve c) ts = .ok positions ts := by
  induction keys with
  | nil => exact ⟨[], rfl, rfl⟩
  | cons key keys ih =>
    have hkey := resolve_run c key ts
    rw [List.mapM_cons]
    cases hposition : (ts c).position? key with
    | none =>
      rw [hposition] at hkey
      rw [List.find?_cons_of_pos (by simp [hposition])]
      exact run_bind_of_error hkey
    | some position =>
      rw [hposition] at hkey
      rw [List.find?_cons_of_neg (by simp [hposition]), run_bind_of_ok hkey]
      split at ih
      · exact run_bind_of_error ih
      · obtain ⟨positions, hpositions, hrun⟩ := ih
        refine ⟨position :: positions, by rw [List.map_cons, List.map_cons, hposition, hpositions],
          ?_⟩
        exact run_bind_of_ok hrun

/-- After all keys were resolved, every cell of the type of the column can be set. -/
theorem writeInPlace_eq (hts : ts.WellFormed) {column : String} {keys : List RowKey}
    {batch : Batch} {cells : List Cell} (hcells : c.cellsFor column keys batch = .ok cells) :
    writeInPlace c column keys cells ts = step (fun ts => ts.write c column keys cells) ts := by
  have hresolve := mapM_resolve c keys ts
  rw [step, atOnce, Tables.write]
  cases hfind : keys.find? fun key => ((ts c).position? key).isNone with
  | some key =>
    rw [hfind] at hresolve
    exact run_bind_of_error hresolve
  | none =>
    rw [hfind] at hresolve
    obtain ⟨positions, hpositions, hrun⟩ := hresolve
    rw [writeInPlace, run_bind_of_ok hrun, run_get_bind]
    dsimp only
    cases hcolumn : !(ts c).hasColumn column with
    | true => rfl
    | false =>
      -- the rows are there and the types fit, so no cell is refused on the way
      obtain ⟨type, hspec, hbatch, -⟩ := Category.column?_of_cellsFor hcells
      obtain ⟨col, hcol, htype, hlength⟩ := (hts c).exists_column? hspec
      obtain ⟨t, ht⟩ : ∃ t, (ts c).setCells column (keys.zip cells) = .ok t := by
        refine Table.exists_setCells hcol hlength fun e he => ?_
        obtain ⟨hkey, hcell⟩ := List.of_mem_zip he
        refine ⟨?_, (Batch.type_of_cells? hbatch e.2 hcell).trans htype.symm⟩
        simpa [Option.isSome_iff_ne_none] using List.find?_eq_none.mp hfind e.1 hkey
      have hset := Table.setCellsInPlace_eq hpositions ht
      simp only [Bool.false_eq_true, if_false, inTable, hset, ht]
      rfl

end Tables

/-! ### Switches and connections -/

namespace Table

/-- Sets a truth value of a row, if it has another value. -/
def setFlagInPlace (key : RowKey) (column : String) (value : Bool) :
    EStateM TableError Table Bool := do
  if ((← get).cell? key column).bind (·.as? .boolean) = some value then return false
  else
    step fun t => t.setCell key column (.ofBool value)
    return true

/-- Sets several truth values of a row one after another. -/
def setFlagsInPlace (key : RowKey) (columns : List String) (value : Bool) :
    EStateM TableError Table Bool :=
  columns.foldlM (fun changed column => return changed || (← setFlagInPlace key column value))
    false

theorem setFlagInPlace_eq (key : RowKey) (column : String) (value : Bool) (t : Table) :
    setFlagInPlace key column value t = atOnce (fun t => t.setFlag key column value) t := by
  rw [setFlagInPlace, run_get_bind, atOnce, setFlag]
  split
  · rfl
  cases hset : t.setCell key column (.ofBool value) with
  | ok u => exact run_bind_of_ok (step_ok hset)
  | error e =>
    have hstep : step (fun t => t.setCell key column (.ofBool value)) t = .error e t := by
      rw [step, atOnce, hset]
      rfl
    exact run_bind_of_error hstep

/-- Truth values that can be set at one stroke are set one after another. -/
theorem setFlagsInPlace_eq {t u : Table} {key : RowKey} {columns : List String}
    {value changed : Bool} (h : t.setFlags key columns value = .ok (changed, u)) :
    setFlagsInPlace key columns value t = .ok changed u := by
  rw [setFlags] at h
  rw [setFlagsInPlace]
  generalize false = before at h ⊢
  induction columns generalizing t before with
  | nil =>
    obtain ⟨rfl, rfl⟩ := Prod.mk.inj (Except.ok.inj h)
    rfl
  | cons column columns ih =>
    obtain ⟨⟨changed', v⟩, hv, h⟩ := bind_eq_ok.mp h
    obtain ⟨⟨here, w⟩, hw, heq⟩ := map_eq_ok.mp hv
    obtain ⟨rfl, rfl⟩ := Prod.mk.inj heq
    have hhere : setFlagInPlace key column value t = .ok here w :=
      (setFlagInPlace_eq key column value t).trans (atOnce_ok hw)
    have hstep : (return before || (← setFlagInPlace key column value) :
        EStateM TableError Table Bool) t = .ok (before || here) w := run_bind_of_ok hhere
    rw [List.foldlM_cons]
    exact (run_bind_of_ok hstep).trans (ih _ h)

/-- Truth values of a row that is there can be set, if the columns are of truth values. -/
theorem exists_setFlags {t : Table} {key : RowKey} {columns : List String} (value : Bool)
    (hkey : (t.position? key).isSome) (ht : t.IsRectangular)
    (hcolumns : ∀ column ∈ columns, ∃ col, t.column? column = some col ∧ col.type = .boolean) :
    ∃ r, t.setFlags key columns value = .ok r := by
  rw [setFlags]
  generalize false = before
  induction columns generalizing t before with
  | nil => exact ⟨_, rfl⟩
  | cons column columns ih =>
    obtain ⟨col, hcol, htype⟩ := hcolumns column List.mem_cons_self
    obtain ⟨position, hposition⟩ := Option.isSome_iff_exists.mp hkey
    have hlt : position < col.length := by
      rw [ht col (mem_of_column? hcol).1]
      exact (List.findIdx?_eq_some_iff_getElem.mp hposition).1
    obtain ⟨⟨here, v⟩, hv⟩ : ∃ r, t.setFlag key column value = .ok r := by
      rw [setFlag]
      split
      · exact ⟨_, rfl⟩
      · obtain ⟨u, hu⟩ : ∃ u, t.setCell key column (.ofBool value) = .ok u :=
          exists_setCell hposition hcol hlt htype.symm
        exact ⟨(true, u), by rw [hu]; rfl⟩
    have hshape := sameShape_setFlag hv
    have hcolumns' : ∀ other ∈ columns,
        ∃ col, v.column? other = some col ∧ col.type = .boolean := fun other hother => by
      obtain ⟨col', hcol', htype'⟩ := hcolumns other (List.mem_cons_of_mem _ hother)
      obtain ⟨d, hd, hdtype, -⟩ := hshape.exists_column? hcol'
      exact ⟨d, hd, hdtype.trans htype'⟩
    obtain ⟨r, hr⟩ :=
      ih (by rwa [hshape.position?]) (hshape.isRectangular ht) hcolumns' (before || here)
    exact ⟨r, bind_eq_ok.mpr
      ⟨(before || here, v), map_eq_ok.mpr ⟨(here, v), hv, rfl⟩, hr⟩⟩

end Table

/-- What says that an element is connected is a truth value. -/
theorem Category.type_of_connectionColumns (c : Category) : ∀ column ∈ c.connectionColumns,
    (c.column? column).map (·.type) = some .boolean := by
  cases c <;> decide +kernel

namespace Tables

variable {ts : Tables}

/-- Opens or closes a switch. -/
def setSwitchInPlace (id : String) (isOpen : Bool) : EStateM NetworkError Tables Bool := do
  if (((← get) .switch).cell? (.plain id) openColumn).isNone then
    throw (.unknownElement .switch id)
  else inTable .switch (Table.setFlagInPlace (.plain id) openColumn isOpen)

/-- Connects or disconnects an element at one end after the other. -/
def setConnectedInPlace (id : String) (connected : Bool) : EStateM NetworkError Tables Bool := do
  match (← get).connectableCategory? id with
  | none => throw (.unknownConnectable id)
  | some c => inTable c (Table.setFlagsInPlace (.plain id) c.connectionColumns connected)

theorem setSwitchInPlace_eq (id : String) (isOpen : Bool) (ts : Tables) :
    setSwitchInPlace id isOpen ts = atOnce (fun ts => ts.setSwitch id isOpen) ts := by
  rw [setSwitchInPlace, run_get_bind, atOnce, Tables.setSwitch]
  split
  · rfl
  · rw [inTable_eq (Table.setFlagInPlace_eq _ _ _ _)]
    cases (ts .switch).setFlag (.plain id) openColumn isOpen <;> rfl

/-- All ends of an element that was found can be switched. -/
theorem setConnectedInPlace_eq (hts : ts.WellFormed) (id : String) (connected : Bool) :
    setConnectedInPlace id connected ts =
      atOnce (fun ts => ts.setConnected id connected) ts := by
  rw [setConnectedInPlace, run_get_bind, atOnce, Tables.setConnected]
  cases hfound : ts.connectableCategory? id with
  | none => rfl
  | some c =>
    have hkey : ((ts c).position? (.plain id)).isSome := by
      have h := List.find?_some hfound
      simp only [Bool.and_eq_true] at h
      exact h.2
    have hcolumns : ∀ column ∈ c.connectionColumns,
        ∃ col, (ts c).column? column = some col ∧ col.type = .boolean := fun column hcolumn => by
      obtain ⟨spec, hspec, htype⟩ :=
        Option.map_eq_some_iff.mp (c.type_of_connectionColumns column hcolumn)
      obtain ⟨col, hcol, hcoltype, -⟩ := (hts c).exists_column? hspec
      exact ⟨col, hcol, hcoltype.trans htype⟩
    obtain ⟨⟨changed, t⟩, ht⟩ :=
      Table.exists_setFlags connected hkey (hts c).rectangular hcolumns
    simp only [inTable, Table.setFlagsInPlace_eq ht, ht]
    rfl

/-- Appends a row to the table of a category. -/
def pushInPlace (c : Category) (key : RowKey) (cells : List Cell) :
    EStateM NetworkError Tables Unit := inTable c (Table.pushRowInPlace key cells)

theorem pushInPlace_eq (c : Category) (key : RowKey) (cells : List Cell) (ts : Tables) :
    pushInPlace c key cells ts = step (fun ts => ts.push c key cells) ts := by
  rw [pushInPlace, inTable_eq (Table.pushRowInPlace_eq key cells (ts c)), step, atOnce,
    Tables.push]
  dsimp only
  cases (ts c).pushRow key cells <;> rfl

end Tables

/-! ### Networks and stores -/

/-- A change of the tables of the working variant. -/
def Network.inTables {α : Type} (op : EStateM NetworkError Tables α) :
    EStateM NetworkError Network α := fun n =>
  match n.tables? with
  | none => .error (.unknownVariant n.working) n
  | some ts => putBack (n.setTables n.working) id (op ts)

theorem Network.inTables_eq {α : Type} {n : Network} {op : EStateM NetworkError Tables α}
    {f : Tables → Except NetworkError (α × Tables)}
    (h : ∀ ts, n.tables? = some ts → op ts = atOnce f ts) :
    inTables op n = atOnce (fun n => n.changeTables f) n := by
  rw [inTables, atOnce, changeTables, tables]
  cases hts : n.tables? with
  | none => rfl
  | some ts =>
    dsimp only
    rw [h ts hts, atOnce]
    cases hrun : f ts with
    | ok r => simp [hrun, putBack, bind, Except.bind, pure, Except.pure]
    | error e => simp [hrun, putBack, setTables_tables? hts, bind, Except.bind]

namespace Store

/-- A change of the network of a handle. -/
def inNetwork {α : Type} (handle : Nat) (op : EStateM NetworkError Network α) : StoreM α :=
  fun s => match s.network? handle with
    | none => .error (.unknownHandle handle) s
    | some n => putBack (s.setNetwork handle) id (op n)

variable {s : Store}

/-- A change of a network that is made at one stroke. -/
theorem inNetwork_eq {α : Type} (hs : s.Sound) {handle : Nat}
    {op : EStateM NetworkError Network α} {f : Network → Except NetworkError (α × Network)}
    (h : ∀ n, s.network? handle = some n → op n = atOnce f n) :
    inNetwork handle op s = change handle f s := by
  rw [inNetwork, change_eq]
  cases hn : s.network? handle with
  | none => rfl
  | some n =>
    dsimp only
    rw [h n hn, atOnce]
    cases hrun : f n with
    | ok r => simp [putBack]
    | error e => simp [putBack, hs.setNetwork_self hn]

/-- Carries a call out in place.  A call that is not mentioned changes the store at one stroke,
if at all. -/
def Call.inPlace (handle : Nat) : Call → StoreM Answer
  | .addElement c key entries => answering do
      let cells ← ofResult (c.newRow key entries)
      inNetwork handle (Network.inTables (Tables.pushInPlace c key cells))
  | .write c column keys batch => answering do
      let cells ← ofResult (c.cellsFor column keys batch)
      inNetwork handle (Network.inTables (Tables.writeInPlace c column keys cells))
  | .setSwitch id isOpen =>
    .flag <$> inNetwork handle (Network.inTables (Tables.setSwitchInPlace id isOpen))
  | .setConnected id connected =>
    .flag <$> inNetwork handle (Network.inTables (Tables.setConnectedInPlace id connected))
  | other => other.run handle

/-- Carries a request out in place. -/
def Request.inPlace : Request → StoreM Answer
  | .call handle c => c.inPlace handle
  | other => other.run

/-- A change of the working variant, which may rely on its tables, in place and at one stroke. -/
theorem inNetwork_inTables_eq {α : Type} (hs : s.Sound) (handle : Nat)
    {op : EStateM NetworkError Tables α} {f : Tables → Except NetworkError (α × Tables)}
    (h : ∀ ts, ts.WellFormed → op ts = atOnce f ts) :
    inNetwork handle (Network.inTables op) s = change handle (fun n => n.changeTables f) s :=
  inNetwork_eq hs fun _ hn => Network.inTables_eq fun ts hts =>
    h ts ((hs.network hn).of_tables (Network.tables_eq_ok.mpr hts))

theorem answering_congr {op op' : StoreM Unit} (h : op s = op' s) :
    answering op s = answering op' s := by
  rw [answering, answering, map_run, map_run, h]

theorem ofResult_bind_congr {α β : Type} {x : Except NetworkError α} {f g : α → StoreM β}
    (h : ∀ a, x = .ok a → f a s = g a s) : (ofResult x >>= f) s = (ofResult x >>= g) s := by
  cases hx : x with
  | error e => rfl
  | ok a => exact h a hx

/-- In a store of well-formed networks, a call in place is the call. -/
theorem Call.inPlace_eq (hs : s.Sound) (handle : Nat) (call : Call) :
    call.inPlace handle s = call.run handle s := by
  cases call with
  | addElement c key entries =>
    refine answering_congr (ofResult_bind_congr fun cells _ => ?_)
    rw [← change_changeTables]
    exact inNetwork_inTables_eq hs handle fun ts _ => Tables.pushInPlace_eq c key cells ts
  | write c column keys batch =>
    refine answering_congr (ofResult_bind_congr fun cells hcells => ?_)
    rw [← change_changeTables]
    exact inNetwork_inTables_eq hs handle fun ts hts => Tables.writeInPlace_eq hts hcells
  | setSwitch id isOpen =>
    rw [inPlace, run, map_run, map_run, Store.setSwitch,
      inNetwork_inTables_eq hs handle fun ts _ => Tables.setSwitchInPlace_eq id isOpen ts]
  | setConnected id connected =>
    rw [inPlace, run, map_run, map_run, Store.setConnected,
      inNetwork_inTables_eq hs handle fun ts hts => Tables.setConnectedInPlace_eq hts id connected]
  | _ => rfl

/-- In a store of well-formed networks a request in place is the request, whatever is reported. -/
theorem Request.inPlace_eq (hs : s.Sound) (request : Request) :
    request.inPlace s = request.run s := by
  cases request with
  | call handle call => exact call.inPlace_eq hs handle
  | _ => rfl

/-- On a reachable store, a request in place has the outcome that it has at one stroke; and if it
is refused, all networks, the handles and the next handle are as before. -/
theorem Request.unchanged_of_error (hs : s.Reachable) (request : Request) :
    request.inPlace s = request.run s ∧
      ∀ e s', request.inPlace s = .error e s' → s' = s := by
  have heq := request.inPlace_eq hs.wellFormed.toSound
  refine ⟨heq, fun e s' he => ?_⟩
  exact request.allOrNothing_run s e s' (heq ▸ he)

/-- A value for a load that is there and one for a load that is not. -/
def strayLoad : Request :=
  .call 1 (.write .load "p0" [.plain "L1", .plain "L2"] (.doubles [1.0, 2.0]))

theorem unchanged_after_strayLoad : ∃ s',
    strayLoad.inPlace oneLoad = .error (.unknownElement .load "L2") s' ∧
      strayLoad.run oneLoad = .error (.unknownElement .load "L2") s' ∧ s' = oneLoad := by
  have hrun : strayLoad.inPlace oneLoad = .error (.unknownElement .load "L2")
      (stateAfter strayLoad.inPlace oneLoad) := by rfl
  obtain ⟨heq, hkept⟩ := Request.unchanged_of_error (reachable_afterAll _) strayLoad
  exact ⟨_, hrun, heq ▸ hrun, hkept _ _ hrun⟩

end Store

end PowerTables
