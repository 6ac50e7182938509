import Mathlib.Data.List.Induction
import Mathlib.Data.List.TakeWhile
import PowerTables.Proofs.Table.Rows

/-!
# Joining columns

A join brings in the columns that a table lacks, matched on row key, and leaves the columns
that are there alone.  Its outcome is given in closed form for a table whose columns are all as
long as its index: a join ends at the first column that neither table has, and otherwise
succeeds.  Taking the added columns out again gives back the table.

## Main definitions

* `Table.lastCell?` : the cell of the last row of a key.
* `Table.joinedCell?` : the cell that a join brings in for a key.
* `Table.joinedColumn?` : the column that a join adds.
* `Table.added` : the names of the columns that a join adds.

## Main results

* `Table.join_outcome`, `Table.join_failure_eq_none_iff` : the outcome of any join.
* `Table.join_eq` : the outcome of a join where the requested columns are known.
* `Table.foldl_removeColumn` : the added columns taken out again.
-/

namespace PowerTables

namespace Table

/-- The cell of the last row of a key in a column. -/
def lastCell? (t : Table) (key : RowKey) (name : String) : Option Cell :=
  (lastPosition? t.index key).bind (t.cellAt? · name)

/-- The cell that a join brings in for a key: that of the last row of the key, or a missing
one. -/
def joinedCell? (source : Table) (key : RowKey) (name : String) : Option Cell :=
  (source.column? name).map fun c =>
    (source.lastCell? key name).getD ⟨c.type, c.type.missing⟩

/-- The column that a join adds to a table of some rows. -/
def joinedColumn? (source : Table) (index : List RowKey) (name : String) : Option Column :=
  (source.column? name).map (·.gathered (index.map (lastPosition? source.index)))

theorem lastPosition?_eq_some_iff {t : Table} {key : RowKey} {q : Nat} :
    lastPosition? t.index key = some q ↔ t.IsLastRow key q := by
  have hentry (r : Nat) : t.index.zipIdx[r]? = (t.index[r]?).map (·, r) := by
    simp [List.getElem?_zipIdx]
  rw [lastPosition?, Option.map_eq_some_iff]
  simp only [find?_reverse_eq_some_iff, hentry, Option.map_eq_some_iff]
  constructor
  · rintro ⟨_, ⟨r, ⟨key', hr, rfl⟩, hkey, hlast⟩, rfl⟩
    obtain rfl : key' = key := beq_iff_eq.mp hkey
    exact ⟨hr, fun r' hr' hkey' => by simpa using hlast r' _ hr' ⟨_, hkey', rfl⟩⟩
  · rintro ⟨hkey, hlast⟩
    refine ⟨(key, q), ⟨q, ⟨key, hkey, rfl⟩, beq_self_eq_true key, ?_⟩, rfl⟩
    rintro r _ hr ⟨key', hkey', rfl⟩
    refine beq_false_of_ne ?_
    rintro rfl
    exact hlast r hr hkey'

theorem exists_lastPosition? {index : List RowKey} {key : RowKey} (h : key ∈ index) :
    ∃ p, lastPosition? index key = some p := by
  cases hlast : lastPosition? index key with
  | some p => exact ⟨p, rfl⟩
  | none =>
    rw [lastPosition?, Option.map_eq_none_iff, List.find?_eq_none] at hlast
    obtain ⟨p, hp⟩ := List.mem_iff_getElem?.mp h
    have hmem : (key, p) ∈ index.zipIdx.reverse := by
      rw [List.mem_reverse, List.mem_zipIdx_iff_getElem?]
      exact hp
    simpa using hlast _ hmem

theorem lastPosition?_lt {index : List RowKey} {key : RowKey} {p : Nat}
    (h : lastPosition? index key = some p) : p < index.length :=
  (List.getElem?_eq_some_iff.mp (lastPosition?_eq_some_iff (t := ofIndex index).mp h).1).1

/-- Where the keys are apart, the last row of a key is its first one. -/
theorem lastPosition?_eq_position? {t : Table} (hkeys : t.index.Nodup) (key : RowKey) :
    lastPosition? t.index key = t.position? key := by
  ext p
  rw [lastPosition?_eq_some_iff, position?_eq_some_iff]
  exact ⟨fun h => isFirstRow_of_nodup hkeys h.1, fun h => isLastRow_of_nodup hkeys h.1⟩

theorem lastCell?_eq_cell? {t : Table} (hkeys : t.index.Nodup) (key : RowKey) (name : String) :
    t.lastCell? key name = t.cell? key name := by
  rw [lastCell?, lastPosition?_eq_position? hkeys, cell?_eq_bind]

theorem joinedColumn?_spec {source : Table} {index : List RowKey} {name : String} {c : Column}
    (h : source.joinedColumn? index name = some c) :
    c.name = name ∧ c.length = index.length ∧
      ∀ i, c.cell? i = (index[i]?).bind (source.joinedCell? · name) := by
  obtain ⟨d, hd, rfl⟩ := Option.map_eq_some_iff.mp h
  refine ⟨(mem_of_column? hd).2, by simp [Column.gathered, Column.length], fun i => ?_⟩
  rw [Column.cell?_gathered, List.getElem?_map, Option.map_map]
  cases index[i]? with
  | none => rfl
  | some key =>
    have hcell : (fun p => source.cellAt? p name) = d.cell? :=
      funext fun p => cellAt?_of_column? hd p
    simp [joinedCell?, lastCell?, hd, hcell]

theorem exists_joinedColumn? {source : Table} {name : String} (h : name ∈ source.columnNames)
    (index : List RowKey) : ∃ c, source.joinedColumn? index name = some c := by
  obtain ⟨c, hc⟩ := exists_column?_of_mem h
  exact ⟨_, by rw [joinedColumn?, hc, Option.map_some]⟩

/-- The requested columns that a table lacks. -/
def lacking (t : Table) (names : List String) : List String :=
  names.filter fun name => !t.hasColumn name

theorem mem_lacking {t : Table} {names : List String} {name : String} :
    name ∈ t.lacking names ↔ name ∈ names ∧ name ∉ t.columnNames := by
  simp [lacking, ← hasColumn_iff]

/-- A table with the columns of another one that it lacks. -/
def joined (t source : Table) (names : List String) : Table :=
  ⟨t.index, t.columns ++ (t.lacking names).filterMap (source.joinedColumn? t.index)⟩

section Joined

variable {t source : Table} {names : List String}

theorem map_name_joinedColumns (h : ∀ name ∈ names, name ∈ source.columnNames)
    (index : List RowKey) :
    (names.filterMap (source.joinedColumn? index)).map (·.name) = names := by
  induction names with
  | nil => rfl
  | cons name names ih =>
    obtain ⟨c, hc⟩ := exists_joinedColumn? (h name List.mem_cons_self) index
    rw [List.filterMap_cons_some hc, List.map_cons, (joinedColumn?_spec hc).1,
      ih fun other hother => h other (List.mem_cons_of_mem name hother)]

theorem columnNames_joined (h : ∀ name ∈ names, name ∈ source.columnNames) :
    (t.joined source names).columnNames = t.columnNames ++ t.lacking names := by
  rw [columnNames, joined, List.map_append, columnNames,
    map_name_joinedColumns fun name hname => h name (mem_lacking.mp hname).1]

theorem nodup_columnNames_joined (h : ∀ name ∈ names, name ∈ source.columnNames)
    (hnames : names.Nodup) (ht : t.columnNames.Nodup) :
    (t.joined source names).columnNames.Nodup := by
  rw [columnNames_joined h, List.nodup_append]
  refine ⟨ht, hnames.filter _, fun name hname other hother => ?_⟩
  rintro rfl
  exact (mem_lacking.mp hother).2 hname

theorem IsRectangular.joined (ht : t.IsRectangular) (source : Table) (names : List String) :
    (t.joined source names).IsRectangular := by
  intro c hc
  rcases List.mem_append.mp hc with hc | hc
  · exact ht c hc
  · obtain ⟨name, -, hname⟩ := List.mem_filterMap.mp hc
    exact (joinedColumn?_spec hname).2.1

theorem column?_joined_of_mem {name : String} (hname : name ∈ t.columnNames) :
    (t.joined source names).column? name = t.column? name := by
  obtain ⟨c, hc⟩ := exists_column?_of_mem hname
  rw [column?, joined, List.find?_append, ← column?, hc, Option.some_or]

/-- What is brought in is as long as the index. -/
theorem length_of_column?_joined {name : String} (hname : name ∉ t.columnNames) {col : Column}
    (h : (t.joined source names).column? name = some col) : col.length = t.size := by
  obtain ⟨hmem, rfl⟩ := mem_of_column? h
  rcases List.mem_append.mp hmem with hmem | hmem
  · exact absurd (mem_columnNames_iff.mpr ⟨col, hmem, rfl⟩) hname
  · obtain ⟨_, -, hjoined⟩ := List.mem_filterMap.mp hmem
    exact (joinedColumn?_spec hjoined).2.1

/-- A column that is lacking is found where it was brought in. -/
theorem column?_joined_of_lacking {name : String} (hname : name ∈ t.lacking names) :
    (t.joined source names).column? name = source.joinedColumn? t.index name := by
  have hown : t.column? name = none := column?_eq_none_iff.mpr (mem_lacking.mp hname).2
  have hmake : ∀ name c, source.joinedColumn? t.index name = some c → c.name = name :=
    fun _ _ h => (joinedColumn?_spec h).1
  rw [column?, joined, List.find?_append, ← column?, hown, Option.none_or,
    find?_filterMap_key hmake, if_pos (by simpa using hname)]

theorem cellAt?_joined_of_lacking (h : ∀ name ∈ names, name ∈ source.columnNames) {name : String}
    (hname : name ∈ t.lacking names) (p : Nat) :
    (t.joined source names).cellAt? p name =
      (t.index[p]?).bind (source.joinedCell? · name) := by
  obtain ⟨c, hc⟩ := exists_joinedColumn? (h name (mem_lacking.mp hname).1) t.index
  rw [cellAt?_of_column? ((column?_joined_of_lacking hname).trans hc), (joinedColumn?_spec hc).2.2]

theorem gatherColumn_lastPosition? {c : Column} (hlength : c.length = source.size)
    (index : List RowKey) :
    gatherColumn (index.map (lastPosition? source.index)) c =
      .ok (c.gathered (index.map (lastPosition? source.index))) := by
  refine gatherColumn_eq_ok_iff.mpr ⟨fun p hp => ?_, rfl⟩
  obtain ⟨key, -, hkey⟩ := List.mem_map.mp hp
  rw [hlength]
  exact lastPosition?_lt hkey

theorem lacking_append_singleton (t : Table) (names : List String) (name : String) :
    t.lacking (names ++ [name]) =
      if t.hasColumn name then t.lacking names else t.lacking names ++ [name] := by
  rw [lacking, List.filter_append]
  cases hname : t.hasColumn name <;> simp [hname, lacking]

theorem lacking_eq_self (h : ∀ name ∈ names, name ∉ t.columnNames) : t.lacking names = names :=
  List.filter_eq_self.mpr fun name hname => by simpa [← hasColumn_iff] using h name hname

theorem joined_append_singleton {name : String} {c : Column} (hname : name ∉ t.columnNames)
    (hc : source.joinedColumn? t.index name = some c) :
    t.joined source (names ++ [name]) = ⟨t.index, (t.joined source names).columns ++ [c]⟩ := by
  rw [joined, joined, lacking_append_singleton, if_neg (mt hasColumn_iff.mp hname),
    List.filterMap_append, List.filterMap_cons_some hc, List.filterMap_nil, List.append_assoc]

/-! ### What a join adds -/

/-- A requested column is there already or can be brought in. -/
def knows (t source : Table) (name : String) : Bool := t.hasColumn name || source.hasColumn name

/-- The columns that a join adds: those that are lacking, each once, up to the first one that is
not known. -/
def added (t source : Table) (names : List String) : List String :=
  (t.lacking (names.takeWhile (t.knows source))).eraseDups

variable {name : String}

theorem knows_iff : t.knows source name = true ↔
    name ∈ t.columnNames ∨ name ∈ source.columnNames := by
  rw [knows, Bool.or_eq_true, hasColumn_iff, hasColumn_iff]

theorem mem_added (h : name ∈ t.added source names) :
    name ∈ names ∧ name ∉ t.columnNames ∧ name ∈ source.columnNames := by
  rw [added, List.mem_eraseDups, mem_lacking] at h
  obtain ⟨hmem, hlacking⟩ := h
  refine ⟨(List.takeWhile_sublist _).subset hmem, hlacking, ?_⟩
  exact (knows_iff.mp (List.mem_takeWhile_imp hmem)).resolve_left hlacking

theorem lacking_added : t.lacking (t.added source names) = t.added source names :=
  lacking_eq_self fun _ h => (mem_added h).2.1

theorem added_of_known (h : ∀ other ∈ names, t.knows source other = true) :
    t.added source names = (t.lacking names).eraseDups := by
  rw [added, List.takeWhile_eq_self_iff.mpr h]

/-- Nothing is added behind a column that is not known. -/
theorem added_append_of_unknown {before after : List String} (h : t.knows source name = false) :
    t.added source (before ++ name :: after) = t.added source before := by
  rw [added, added, List.takeWhile_append, List.takeWhile_cons_of_neg (by simp [h]),
    List.append_nil]
  split
  · next hlength => rw [(List.takeWhile_sublist _).eq_of_length hlength]
  · rfl

theorem added_append_singleton (h : ∀ other ∈ names, t.knows source other = true)
    (hname : t.knows source name = true) : t.added source (names ++ [name]) =
      if name ∈ t.columnNames ∨ name ∈ t.added source names then t.added source names
      else t.added source names ++ [name] := by
  have hall : ∀ other ∈ names ++ [name], t.knows source other = true :=
    List.forall_mem_append.mpr ⟨h, List.forall_mem_singleton.mpr hname⟩
  rw [added_of_known hall, added_of_known h, lacking_append_singleton]
  simp only [hasColumn_iff, List.mem_eraseDups]
  by_cases hown : name ∈ t.columnNames
  · rw [if_pos hown, if_pos (.inl hown)]
  · rw [if_neg hown, List.eraseDups_append, List.removeAll]
    by_cases hmem : name ∈ t.lacking names
    · rw [if_pos (.inr hmem)]
      simp [hmem]
    · rw [if_neg (not_or.mpr ⟨hown, hmem⟩)]
      simp [hmem, List.eraseDups_cons]

theorem columnNames_joined_added : (t.joined source (t.added source names)).columnNames =
    t.columnNames ++ t.added source names := by
  rw [columnNames_joined fun name h => (mem_added h).2.2, lacking_added]

/-- One requested column more, where all before it are known. -/
theorem addColumn_added (hsource : source.IsRectangular)
    (h : ∀ other ∈ names, t.knows source other = true) :
    Joined.addColumn source (t.index.map (lastPosition? source.index))
        ⟨t.joined source (t.added source names), t.added source names, none⟩ name =
      ⟨t.joined source (t.added source (names ++ [name])), t.added source (names ++ [name]),
        if t.knows source name then none else some (.joinSource name)⟩ := by
  have hhas : (t.joined source (t.added source names)).hasColumn name = true ↔
      name ∈ t.columnNames ∨ name ∈ t.added source names := by
    rw [hasColumn_iff, columnNames_joined_added, List.mem_append]
  by_cases hthere : name ∈ t.columnNames ∨ name ∈ t.added source names
  · have hname : t.knows source name = true :=
      knows_iff.mpr (hthere.imp_right fun hmem => (mem_added hmem).2.2)
    rw [added_append_singleton h hname, if_pos hthere, Joined.addColumn, hhas.mpr hthere,
      Bool.or_true, if_pos rfl, if_pos hname]
  · have hlacks := Bool.eq_false_iff.mpr (mt hhas.mp hthere)
    have hown := (not_or.mp hthere).1
    cases hc : source.column? name with
    | none =>
      have hunknown : t.knows source name = false := by
        rw [Bool.eq_false_iff, Ne, knows_iff]
        exact not_or.mpr ⟨hown, column?_eq_none_iff.mp hc⟩
      have hadded : t.added source (names ++ [name]) = t.added source names :=
        added_append_of_unknown hunknown
      rw [hadded, Joined.addColumn, hlacks, hc, hunknown]
      rfl
    | some c =>
      obtain ⟨hmem, rfl⟩ := mem_of_column? hc
      have hknown : t.knows source c.name = true :=
        knows_iff.mpr (.inr (mem_columnNames_iff.mpr ⟨c, hmem, rfl⟩))
      have hcolumn : source.joinedColumn? t.index c.name =
          some (c.gathered (t.index.map (lastPosition? source.index))) := by
        rw [joinedColumn?, hc, Option.map_some]
      rw [added_append_singleton h hknown, if_neg hthere, joined_append_singleton hown hcolumn,
        Joined.addColumn, hlacks, hc, hknown]
      simp only [gatherColumn_lastPosition? (hsource c hmem)]
      rfl

/-- What a join does, whatever columns are requested: it adds those that are lacking, and ends at
the first one that is not known. -/
theorem join_outcome (hsource : source.IsRectangular) (t : Table) (names : List String) :
    t.join source names = ⟨t.joined source (t.added source names), t.added source names,
      (names.find? (!t.knows source ·)).map .joinSource⟩ := by
  induction names using List.reverseRecOn with
  | nil => simp [join, joined, lacking, added]
  | append_singleton names name ih =>
    rw [join] at ih
    rw [join, List.foldl_append, ih, List.foldl_cons, List.foldl_nil, List.find?_append]
    cases hunknown : names.find? (!t.knows source ·) with
    | some x =>
      obtain ⟨hx, before, after, rfl, -⟩ := List.find?_eq_some_iff_append.mp hunknown
      have hx : t.knows source x = false := by simpa using hx
      rw [List.append_assoc, List.cons_append, added_append_of_unknown hx,
        added_append_of_unknown hx]
      rfl
    | none =>
      have hall : ∀ other ∈ names, t.knows source other = true := by
        simpa using List.find?_eq_none.mp hunknown
      rw [Option.map_none, addColumn_added hsource hall]
      cases hname : t.knows source name <;> simp [hname]

/-- A join succeeds exactly if every requested column is there already or can be brought in. -/
theorem join_failure_eq_none_iff (hsource : source.IsRectangular) :
    (t.join source names).failure = none ↔
      ∀ name ∈ names, name ∈ t.columnNames ∨ name ∈ source.columnNames := by
  simp only [join_outcome hsource, Option.map_eq_none_iff, List.find?_eq_none, Bool.not_eq_true',
    Bool.not_eq_false, knows_iff]

/-- A join with a table that has the requested columns adds those that are lacking. -/
theorem join_eq (hsource : source.IsRectangular)
    (h : ∀ name ∈ names, name ∈ source.columnNames) (hnames : names.Nodup) :
    t.join source names = ⟨t.joined source names, t.lacking names, none⟩ := by
  have hknown : ∀ name ∈ names, t.knows source name = true := fun name hname =>
    knows_iff.mpr (.inr (h name hname))
  have hlacking : (t.lacking names).Nodup := hnames.filter _
  have hadded : t.added source names = t.lacking names := by
    rw [added_of_known hknown, eraseDups_eq_self hlacking]
  have hjoined : t.joined source (t.added source names) = t.joined source names := by
    rw [joined, lacking_added, hadded, ← joined]
  have hfailure : names.find? (!t.knows source ·) = none := by simpa using hknown
  rw [join_outcome hsource, hjoined, hadded, hfailure, Option.map_none]

end Joined

/-- The last columns of a table taken out again, where none of the others has one of their
names. -/
theorem foldl_removeColumn (index : List RowKey) {kept added : List Column}
    (h : ∀ c ∈ added, ∀ d ∈ kept, d.name ≠ c.name) :
    (added.map (·.name)).foldl removeColumn ⟨index, kept ++ added⟩ = ⟨index, kept⟩ := by
  induction added with
  | nil => simp
  | cons c added ih =>
    have hkept : ¬∃ d ∈ kept, (d.name == c.name) = true := by
      rintro ⟨d, hd, hname⟩
      exact h c List.mem_cons_self d hd (by simpa using hname)
    have hremove :
        removeColumn ⟨index, kept ++ c :: added⟩ c.name = ⟨index, kept ++ added⟩ := by
      rw [removeColumn]
      congr 1
      rw [List.eraseP_append_right _ fun d hd hname => hkept ⟨d, hd, hname⟩,
        List.eraseP_cons_of_pos (by simp)]
    rw [List.map_cons, List.foldl_cons, hremove]
    exact ih fun d hd => h d (List.mem_cons_of_mem c hd)

end Table

end PowerTables
