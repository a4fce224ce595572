import CimStore.Proofs.Attributes
import CimStore.Proofs.Layout

/-!
# Names of tables and columns

Tables are named after classes and reference sets by plain concatenation, and a word that is
reserved is renamed to one that is not reserved, but may be the name of something else:

* `CimClass.columns_distinct_iff`: when the columns of a class have names of their own;
* `CimClass.disjoint_tableKeys_iff`: when the tables of two classes have names of their own;
* `Schema.TablesApart.of_plain`: a clash of tables takes an underscore in the name of a class;
* `Schema.storage_distinct_iff`: when the tables of a store and the columns of its classes have
  names of their own;
* `Schema.layOut_eq_iff_apart`: when a database makes all of the tables.
-/

namespace CimStore

open Schema

variable {k : Comparison}

/-! ## The columns of a class -/

/-- No column of the class stands in the way of another. -/
structure CimClass.ColumnsApart (k : Comparison) (c : CimClass) : Prop where
  /-- The key of the table is no attribute. -/
  key : ∀ d ∈ c.columns, k.key d.label ≠ k.key "id"
  /-- Where `value` is a column, its new name is free. -/
  value : k.IsFree "value" "_value" (c.columns.map Descriptor.label)

/-- **When the columns of a class have names of their own.** -/
theorem CimClass.columns_distinct_iff {c : CimClass} (h : k.Distinct c.labels) :
    k.Distinct c.declaredTable.columns ↔ c.ColumnsApart k := by
  have hnew : k.key "value" ≠ k.key "_value" := by cases k <;> decide
  have hid : k.key "id" ≠ k.key "value" ∧ k.key "id" ≠ k.key "_value" := by cases k <;> decide
  have hlabels : k.Distinct (c.columns.map Descriptor.label) :=
    h.sublist (List.filter_sublist.map _)
  have hcolumns : c.declaredTable.columns =
      "id" :: (c.columns.map Descriptor.label).map columnName := by
    rw [List.map_map]
    rfl
  have hfirst : k.key "id" ∉ ((c.columns.map Descriptor.label).map columnName).map k.key ↔
      ∀ d ∈ c.columns, k.key d.label ≠ k.key "id" := by
    simp only [List.map_map, List.mem_map, Function.comp_apply, not_exists, not_and, columnName,
      Comparison.key_renamed_eq_other_iff hid.1 hid.2, ne_eq]
  have hrest : (((c.columns.map Descriptor.label).map columnName).map k.key).Nodup ↔
      k.IsFree "value" "_value" (c.columns.map Descriptor.label) :=
    Comparison.distinct_renamed_iff hnew hlabels
  rw [hcolumns, Comparison.Distinct, List.map_cons, List.nodup_cons, hfirst, hrest]
  exact ⟨fun h => ⟨h.1, h.2⟩, fun h => ⟨h.1, h.2⟩⟩

instance (k : Comparison) (c : CimClass) : Decidable (c.ColumnsApart k) :=
  decidable_of_iff ((∀ d ∈ c.columns, k.key d.label ≠ k.key "id") ∧
    k.IsFree "value" "_value" (c.columns.map Descriptor.label))
    ⟨fun h => ⟨h.1, h.2⟩, fun h => ⟨h.1, h.2⟩⟩

/-! ## The tables of classes -/

namespace CimClass

variable {a b c : CimClass}

theorem key_joinTableName (name label : String) :
    k.key (joinTableName name label) = k.key (tableName name) ++ '_' :: k.key label := by
  simp [joinTableName, Comparison.key_append, Comparison.key_underscore]

/-- What counts of the names of the tables. -/
def tableKeys (k : Comparison) (c : CimClass) : List (List Char) :=
  c.declaredTables.map fun t => k.key t.table

theorem tableKeys_eq (k : Comparison) (c : CimClass) : c.tableKeys k = k.key (tableName c.name) ::
    c.referenceSets.map fun d => k.key (tableName c.name) ++ '_' :: k.key d.label := by
  rw [tableKeys, declaredTables, List.map_cons, List.map_map]
  exact congrArg (_ :: ·) (List.map_congr_left fun d _ => key_joinTableName c.name d.label)

theorem mem_tableKeys_iff {name : List Char} : name ∈ c.tableKeys k ↔
    name = k.key (tableName c.name) ∨
      ∃ d ∈ c.referenceSets, k.key (tableName c.name) ++ '_' :: k.key d.label = name := by
  rw [tableKeys_eq, List.mem_cons, List.mem_map]

theorem key_tableName_mem (k : Comparison) (c : CimClass) :
    k.key (tableName c.name) ∈ c.tableKeys k :=
  mem_tableKeys_iff.mpr (.inl rfl)

theorem key_joinTableName_mem (k : Comparison) {d : Descriptor} (hd : d ∈ c.referenceSets) :
    k.key (tableName c.name) ++ '_' :: k.key d.label ∈ c.tableKeys k :=
  mem_tableKeys_iff.mpr (.inr ⟨d, hd, rfl⟩)

/-- The tables of one class have names of their own. -/
theorem nodup_tableKeys (h : k.Distinct c.labels) : (c.tableKeys k).Nodup := by
  have hlabels : k.Distinct (c.referenceSets.map Descriptor.label) :=
    h.sublist (List.filter_sublist.map _)
  have hsets : (c.referenceSets.map fun d =>
      k.key (tableName c.name) ++ '_' :: k.key d.label).Nodup := by
    have hmap : (c.referenceSets.map fun d =>
        k.key (tableName c.name) ++ '_' :: k.key d.label) =
          ((c.referenceSets.map Descriptor.label).map k.key).map
            fun label => k.key (tableName c.name) ++ '_' :: label := by
      simp
    rw [hmap]
    exact List.Nodup.map (fun l m heq => (List.cons.inj (List.append_cancel_left heq)).2) hlabels
  rw [tableKeys_eq, List.nodup_cons]
  exact ⟨by simp, hsets⟩

/-- Where the name of the table of `b` is that of the table of `a` with an underscore and more, no
set of `a` has the rest for its label, nor the rest with the label of a set of `b`. -/
def Avoids (k : Comparison) (a b : CimClass) : Prop :=
  ∀ rest, k.key (tableName b.name) = k.key (tableName a.name) ++ '_' :: rest →
    ∀ d ∈ a.referenceSets, k.key d.label ≠ rest ∧
      ∀ e ∈ b.referenceSets, k.key d.label ≠ rest ++ '_' :: k.key e.label

/-- A class avoids itself. -/
theorem avoids_self (a : CimClass) (k : Comparison) : a.Avoids k a :=
  fun _ hrest => by simp at hrest

theorem avoids_of_disjoint (h : (a.tableKeys k).Disjoint (b.tableKeys k)) : a.Avoids k b := by
  intro rest hrest d hd
  refine ⟨fun hlabel => h (key_joinTableName_mem k hd) ?_, fun e he hlabel =>
    h (key_joinTableName_mem k hd) ?_⟩
  · rw [hlabel, ← hrest]
    exact key_tableName_mem k b
  · have hname : k.key (tableName a.name) ++ '_' :: (rest ++ '_' :: k.key e.label) =
        k.key (tableName b.name) ++ '_' :: k.key e.label := by
      rw [hrest, List.append_assoc, List.cons_append]
    rw [hlabel, hname]
    exact key_joinTableName_mem k he

/-- **When the tables of two classes have names of their own.** -/
theorem disjoint_tableKeys_iff : (a.tableKeys k).Disjoint (b.tableKeys k) ↔
    k.key (tableName a.name) ≠ k.key (tableName b.name) ∧ a.Avoids k b ∧ b.Avoids k a := by
  constructor
  · intro h
    refine ⟨fun heq => ?_, avoids_of_disjoint h, avoids_of_disjoint h.symm⟩
    exact h (key_tableName_mem k a) (heq ▸ key_tableName_mem k b)
  · rintro ⟨hne, hab, hba⟩ name ha hb
    rcases mem_tableKeys_iff.mp ha with rfl | ⟨d, hd, rfl⟩
    · rcases mem_tableKeys_iff.mp hb with heq | ⟨e, he, heq⟩
      · exact hne heq
      · exact (hba _ heq.symm e he).1 rfl
    · rcases mem_tableKeys_iff.mp hb with heq | ⟨e, he, heq⟩
      · exact (hab _ heq.symm d hd).1 rfl
      · -- One name is parted at two of its underscores.
        rcases (Text.append_cons_eq_append_cons_iff hne).mp heq.symm with
          ⟨rest, hrest, hlabel⟩ | ⟨rest, hrest, hlabel⟩
        · exact (hab rest hrest d hd).2 e he hlabel
        · exact (hba rest hrest e he).2 d hd hlabel

end CimClass

/-! ## The tables of a store -/

namespace Schema

variable {cs : List CimClass}

/-- No table of the classes has the name that is made of the two words. -/
def Spares (k : Comparison) (cs : List CimClass) (first second : String) : Prop :=
  ∀ c ∈ cs, k.key c.name ≠ k.key (first ++ "_" ++ second) ∧
    (k.key c.name = k.key first → ∀ d ∈ c.referenceSets, k.key d.label ≠ k.key second)

/-- No table of a store stands in the way of another. -/
structure TablesApart (k : Comparison) (cs : List CimClass) : Prop where
  /-- Where `Limit` is a class, its new name is free. -/
  limit : k.IsFree "Limit" "_Limit" (cs.map CimClass.name)
  /-- Where the name of a table goes on from that of another class, no set of that class does. -/
  sets : ∀ a ∈ cs, ∀ b ∈ cs, a.Avoids k b
  /-- The table of the models is that of no class. -/
  models : Spares k cs "cim" "model"
  /-- The table of the identities is that of no class. -/
  identities : Spares k cs "base" "class"

/-- When two words give the name of a table of the class. -/
theorem key_mem_tableKeys_iff {c : CimClass} {first second : String} (hfirst : '_' ∉ k.key first)
    (hsecond : '_' ∉ k.key second) (hword : k.key first ≠ k.key "Limit")
    (hnew : k.key (first ++ "_" ++ second) ≠ k.key "_Limit") :
    k.key (first ++ "_" ++ second) ∈ c.tableKeys k ↔
      k.key c.name = k.key (first ++ "_" ++ second) ∨
        k.key c.name = k.key first ∧ ∃ d ∈ c.referenceSets, k.key d.label = k.key second := by
  have hname : k.key (first ++ "_" ++ second) = k.key first ++ '_' :: k.key second := by
    simp [Comparison.key_append, Comparison.key_underscore]
  -- The word has an underscore that `Limit` has not, and its first part has none, but `_Limit` has.
  have hplain : '_' ∉ k.key "Limit" ∧ '_' ∈ k.key "_Limit" := by cases k <;> decide
  have hboth : k.key (first ++ "_" ++ second) ≠ k.key "Limit" := by
    intro heq
    rw [hname] at heq
    exact hplain.1 (heq ▸ List.mem_append_right _ (List.mem_cons_self ..))
  have hown : k.key first ≠ k.key "_Limit" := fun heq => hfirst (heq ▸ hplain.2)
  have htable := Comparison.key_renamed_eq_other_iff (x := c.name) hboth hnew
  have hstem := Comparison.key_renamed_eq_other_iff (x := c.name) hword hown
  have hjoin : ∀ label, k.key (tableName c.name) ++ '_' :: label =
      k.key first ++ '_' :: k.key second ↔
        k.key (tableName c.name) = k.key first ∧ label = k.key second := by
    intro label
    rw [eq_comm, List.append_cons_inj_of_notMem hfirst hsecond, eq_comm, eq_comm (b := label)]
    exact and_congr_right fun _ => and_iff_right rfl
  rw [CimClass.mem_tableKeys_iff]
  refine or_congr (eq_comm.trans htable) ?_
  rw [hname, ← hstem]
  simp only [hjoin]
  exact ⟨fun ⟨d, hd, hc, hlabel⟩ => ⟨hc, d, hd, hlabel⟩,
    fun ⟨hc, d, hd, hlabel⟩ => ⟨d, hd, hc, hlabel⟩⟩

/-- When two words give the name of no table. -/
theorem spares_iff {first second : String} (hfirst : '_' ∉ k.key first)
    (hsecond : '_' ∉ k.key second) (hword : k.key first ≠ k.key "Limit")
    (hnew : k.key (first ++ "_" ++ second) ≠ k.key "_Limit") :
    Spares k cs first second ↔
      k.key (first ++ "_" ++ second) ∉ cs.flatMap (CimClass.tableKeys k) := by
  rw [List.mem_flatMap, not_exists]
  refine forall_congr' fun c => ?_
  rw [not_and, key_mem_tableKeys_iff hfirst hsecond hword hnew, not_or, not_and]
  simp only [not_exists, not_and, ne_eq]

/-- The tables of classes have names of their own. -/
theorem nodup_flatMap_tableKeys_iff (hnames : k.Distinct (cs.map CimClass.name))
    (hlabels : ∀ c ∈ cs, k.Distinct c.labels) : (cs.flatMap (CimClass.tableKeys k)).Nodup ↔
      k.IsFree "Limit" "_Limit" (cs.map CimClass.name) ∧ ∀ a ∈ cs, ∀ b ∈ cs, a.Avoids k b := by
  have hnew : k.key "Limit" ≠ k.key "_Limit" := by cases k <;> decide
  have hclasses : cs.Pairwise (fun a b => k.key (tableName a.name) ≠ k.key (tableName b.name)) ↔
      k.IsFree "Limit" "_Limit" (cs.map CimClass.name) := by
    rw [← Comparison.distinct_renamed_iff hnew hnames, Comparison.Distinct, List.map_map,
      List.map_map, List.Nodup, List.pairwise_map]
    rfl
  have hsets : cs.Pairwise (fun a b => a.Avoids k b ∧ b.Avoids k a) ↔
      ∀ a ∈ cs, ∀ b ∈ cs, a.Avoids k b := by
    constructor
    · intro h a ha b hb
      have hsymm : Std.Symm fun a b : CimClass => a.Avoids k b ∧ b.Avoids k a :=
        ⟨fun _ _ => And.symm⟩
      have hself : ∀ c ∈ cs, c.Avoids k c ∧ c.Avoids k c :=
        fun c _ => ⟨c.avoids_self k, c.avoids_self k⟩
      exact (h.forall_of_forall hself ha hb).1
    · intro h
      exact List.pairwise_of_forall_mem_list fun a ha b hb => ⟨h a ha b hb, h b hb a ha⟩
  rw [List.nodup_flatMap, and_iff_right fun c hc => CimClass.nodup_tableKeys (hlabels c hc),
    ← hclasses, ← hsets, ← List.pairwise_and_iff]
  exact List.Pairwise.iff fun a b => CimClass.disjoint_tableKeys_iff

/-- **When the tables of a store have names of their own.** -/
theorem tables_distinct_iff (k : Comparison) {cs : List CimClass}
    (hnames : k.Distinct (cs.map CimClass.name)) (hlabels : ∀ c ∈ cs, k.Distinct c.labels) :
    k.Distinct ((tables cs).map Declared.table) ↔ TablesApart k cs := by
  have hkeys : ((tables cs).map Declared.table).map k.key =
      k.key ("cim" ++ "_" ++ "model") :: k.key ("base" ++ "_" ++ "class") ::
        cs.flatMap (CimClass.tableKeys k) := by
    rw [tables_eq, List.map_map, List.map_cons, List.map_cons, List.map_flatMap]
    rfl
  have hfixed : k.key ("cim" ++ "_" ++ "model") ≠ k.key ("base" ++ "_" ++ "class") := by
    cases k <;> decide
  have hmodels : Spares k cs "cim" "model" ↔
      k.key ("cim" ++ "_" ++ "model") ∉ cs.flatMap (CimClass.tableKeys k) := by
    apply spares_iff <;> cases k <;> decide
  have hidentities : Spares k cs "base" "class" ↔
      k.key ("base" ++ "_" ++ "class") ∉ cs.flatMap (CimClass.tableKeys k) := by
    apply spares_iff <;> cases k <;> decide
  rw [Comparison.Distinct, hkeys, List.nodup_cons, List.nodup_cons, List.mem_cons, not_or,
    ← hmodels, ← hidentities, nodup_flatMap_tableKeys_iff hnames hlabels]
  constructor
  · rintro ⟨⟨-, hm⟩, hi, hl, hs⟩
    exact ⟨hl, hs, hm, hi⟩
  · rintro ⟨hl, hs, hm, hi⟩
    exact ⟨⟨hfixed, hm⟩, hi, hl, hs⟩

/-! ## Names without underscores -/

/-- Only the first character of the name of a table can be an underscore. -/
theorem underscore_not_mem_tail {name : String} (h : '_' ∉ name.toList) :
    '_' ∉ (k.key (tableName name)).tail := by
  rw [tableName]
  split
  · cases k <;> decide
  · exact fun hmem => h (Comparison.underscore_mem_key_iff.mp (List.mem_of_mem_tail hmem))

theorem key_tableName_ne_nil {name : String} (h : name ≠ "") : k.key (tableName name) ≠ [] := by
  rw [tableName]
  split
  · cases k <;> decide
  · intro hnil
    exact h (String.toList_eq_nil_iff.mp (List.map_eq_nil_iff.mp hnil))

/-- **A clash takes an underscore in the name of a class**, or a class that is called by the first
word of the name of a fixed table. -/
theorem TablesApart.of_plain (hplain : ∀ c ∈ cs, c.name ≠ "" ∧ '_' ∉ c.name.toList)
    (hwords : ∀ c ∈ cs, k.key c.name ≠ k.key "cim" ∧ k.key c.name ≠ k.key "base") :
    TablesApart k cs := by
  have hkey : ∀ c ∈ cs, ∀ name : String, '_' ∈ name.toList → k.key c.name ≠ k.key name := by
    intro c hc name hname heq
    have hmem : '_' ∈ k.key c.name := heq ▸ Comparison.underscore_mem_key_iff.mpr hname
    exact (hplain c hc).2 (Comparison.underscore_mem_key_iff.mp hmem)
  constructor
  · exact fun _ => List.forall_mem_map.mpr fun c hc => hkey c hc _ (by decide)
  · -- The name of a table would have an underscore behind the name of another.
    intro a ha b hb rest hrest
    have htail : (k.key (tableName b.name)).tail =
        (k.key (tableName a.name)).tail ++ '_' :: rest := by
      rw [hrest, List.tail_append_of_ne_nil (key_tableName_ne_nil (hplain a ha).1)]
    refine absurd ?_ (underscore_not_mem_tail (k := k) (hplain b hb).2)
    rw [htail]
    exact List.mem_append_right _ (List.mem_cons_self ..)
  · exact fun c hc => ⟨hkey c hc _ (by decide), fun heq => absurd heq (hwords c hc).1⟩
  · exact fun c hc => ⟨hkey c hc _ (by decide), fun heq => absurd heq (hwords c hc).2⟩

/-! ## When names clash -/

/-- **The tables of a store and the columns of its classes have names of their own**, unless names
of classes or labels make them meet in one of the ways that `TablesApart` and `ColumnsApart`
exclude. -/
theorem storage_distinct_iff (k : Comparison) {cs : List CimClass}
    (hnames : k.Distinct (cs.map CimClass.name)) (hlabels : ∀ c ∈ cs, k.Distinct c.labels) :
    tables cs = modelTable :: identityTable :: cs.flatMap CimClass.declaredTables ∧
      (k.Distinct ((tables cs).map Declared.table) ↔ TablesApart k cs) ∧
      ∀ c ∈ cs, (k.Distinct c.declaredTable.columns ↔ c.ColumnsApart k) :=
  ⟨tables_eq cs, tables_distinct_iff k hnames hlabels,
    fun c hc => CimClass.columns_distinct_iff (hlabels c hc)⟩

/-- A class with a reserved word for its name and another for a label. -/
def limit : CimClass where
  name := "Limit"
  groups := [[{ fullName := "Limit.value", sort := .float },
    { fullName := "Limit.Members", sort := .referenceSet }]]

theorem storage_distinct_limit :
    Comparison.ignoringCase.Distinct ((limit :: CimClass.standard).map CimClass.name) ∧
    (∀ c ∈ limit :: CimClass.standard, Comparison.ignoringCase.Distinct c.labels) ∧
    Comparison.ignoringCase.Distinct ((tables (limit :: CimClass.standard)).map Declared.table) ∧
    ∀ c ∈ limit :: CimClass.standard, Comparison.ignoringCase.Distinct c.declaredTable.columns := by
  have hnames : Comparison.ignoringCase.Distinct ((limit :: CimClass.standard).map CimClass.name) :=
    by decide +kernel
  have hlabels : ∀ c ∈ limit :: CimClass.standard, Comparison.ignoringCase.Distinct c.labels := by
    decide +kernel
  have hplain : ∀ c ∈ limit :: CimClass.standard, c.name ≠ "" ∧ '_' ∉ c.name.toList := by
    decide +kernel
  have hcolumns : ∀ c ∈ limit :: CimClass.standard, c.ColumnsApart .ignoringCase := by
    decide +kernel
  obtain ⟨-, htables, hdistinct⟩ := storage_distinct_iff .ignoringCase hnames hlabels
  exact ⟨hnames, hlabels, htables.mpr (.of_plain hplain (by decide +kernel)),
    fun c hc => (hdistinct c hc).mpr (hcolumns c hc)⟩

/-- **When a database makes all tables that a store declares.** -/
theorem layOut_eq_iff_apart (hnames : Comparison.ignoringCase.Distinct (cs.map CimClass.name))
    (hlabels : ∀ c ∈ cs, Comparison.ignoringCase.Distinct c.labels) :
    layOut (statements ++ cs.flatMap CimClass.schema) = some (tables cs) ↔
      TablesApart .ignoringCase cs ∧ ∀ t ∈ tables cs, t.Valid := by
  rw [layOut_eq_tables_iff, tables_distinct_iff .ignoringCase hnames hlabels]

/-- A class with a set, and one that is called by the name of the table of the set's members. -/
def shadowed : List CimClass :=
  [{ name := "A", groups := [[{ fullName := "A.x", sort := .referenceSet }]] },
    { name := "A_x", groups := [[{ fullName := "A_x.name", sort := .string }]] }]

/-- **A class can be left without a table of its own**: its statement is passed over, for a table of
the name has been made, which has none of the columns. -/
theorem layOut_shadowed : (shadowed.map CimClass.name).Nodup ∧ (∀ c ∈ shadowed, c.Labelled) ∧
    (∀ t ∈ tables shadowed, t.Valid) ∧
    tables shadowed = [modelTable, identityTable, ⟨"A", ["id"]⟩,
      ⟨"A_x", ["owner_id", "target_rdfid"]⟩, ⟨"A_x", ["id", "name"]⟩] ∧
    layOut (statements ++ shadowed.flatMap CimClass.schema) = some
      [modelTable, identityTable, ⟨"A", ["id"]⟩, ⟨"A_x", ["owner_id", "target_rdfid"]⟩] := by
  have htables : tables shadowed = [modelTable, identityTable, ⟨"A", ["id"]⟩,
      ⟨"A_x", ["owner_id", "target_rdfid"]⟩, ⟨"A_x", ["id", "name"]⟩] := by
    rw [tables_eq]
    decide +kernel
  refine ⟨by decide +kernel, by decide +kernel, ?_, htables, ?_⟩
  · rw [htables]
    decide +kernel
  · rw [layOut_eq]
    show (tables shadowed).foldlM make [] = _
    rw [htables]
    decide +kernel

end Schema

end CimStore
