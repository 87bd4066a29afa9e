import Sovereign.Exposition
import Sovereign.Metrics

/-! The labels of the metrics in the text. Three replacements, one after another, escape each
letter once; the text of the labels is read back by the exposition format. -/
namespace Sovereign.Metrics

section Text

def ValidName (name : String) : Prop := ∀ c∈name.toList, c∈nameRe

def ValidNames (labels : Labels) : Prop := ∀ name∈labels.keys, ValidName name

instance (name : String) : Decidable (ValidName name) :=
  List.decidableBAll (·∈nameRe) name.toList

instance (labels : Labels) : Decidable (ValidNames labels) :=
  List.decidableBAll ValidName labels.keys

def chars (p : String × String) : Exposition.Pair := (p.1.toList, p.2.toList)

def parseLabels (text : String) : Option Key :=
  (Exposition.parse (·∈nameRe) text.toList).map
    (List.map fun p => (String.ofList p.1, String.ofList p.2))

/-- A backslash is doubled before the others are put in front of a line feed or a quote. -/
theorem toList_labelValue (value : String) :
    (labelValue value).toList=Exposition.escape value.toList := by
  rw [labelValue, String.toList_ofList]
  induction value.toList with
  | nil => rfl
  | cons c cs ih =>
    simp only [Text.replace, Exposition.escape, List.flatMap_cons, List.flatMap_append] at ih ⊢
    rw [ih]
    refine congrArg (·++_) ?_
    rw [Exposition.escapeChar]
    by_cases hb : c= '\\'
    · rw [hb]
      rfl
    · by_cases hl : c= '\n'
      · rw [hl]
        rfl
      · simp [hb, hl]

example : labelValue "a\\n\n\""="a\\\\n\\n\\\"" := by decide

theorem sanitize_eq {name : String} (h : ValidName name) : sanitize name=name := by
  have hid : name.toList.map (fun c => if c∈nameRe then c else '_')=name.toList := by
    rw [List.map_congr_left fun c hc => if_pos (h c hc), List.map_id']
  rw [sanitize, hid, String.ofList_toList]

theorem toList_pairText {p : String × String} (h : ValidName p.1) :
    (pairText p).toList=Exposition.pairText (chars p) := by
  rw [pairText, sanitize_eq h, String.toList_append, String.toList_append, String.toList_append,
    toList_labelValue, Exposition.pairText, List.append_assoc, List.append_assoc]
  rfl

theorem toList_renderLabels {k : Key} {extra : Option (String × String)}
    (h : ∀ p∈k++extra.toList, ValidName p.1) :
    (renderLabels k extra).toList=Exposition.labelsText ((k++extra.toList).map chars) := by
  rw [renderLabels, Exposition.labelsText]
  by_cases hnil : k++extra.toList=[]
  · simp [hnil]
  · have hpairs : ((k++extra.toList).map pairText).map String.toList=
        ((k++extra.toList).map chars).map Exposition.pairText := by
      rw [List.map_map, List.map_map]
      exact List.map_congr_left fun p hp => toList_pairText (h p hp)
    simp only [List.map_eq_nil_iff, hnil, if_false, String.toList_append,
      String.toList_intercalate, hpairs]
    rfl

/-- The labels are read back from their text. -/
theorem parseLabels_renderLabels {k : Key} {extra : Option (String × String)}
    (h : ∀ p∈k++extra.toList, ValidName p.1) :
    parseLabels (renderLabels k extra)=some (k++extra.toList) := by
  have hchars : ∀ p∈(k++extra.toList).map chars, ∀ c∈p.1, c∈nameRe := by
    intro p hp
    obtain ⟨q, hq, rfl⟩ := List.mem_map.mp hp
    exact h q hq
  rw [parseLabels, toList_renderLabels h, Exposition.parse_labelsText (by decide) hchars,
    Option.map_some, List.map_map]
  refine congrArg some ((List.map_congr_left fun p _ => ?_).trans (List.map_id _))
  exact Prod.ext String.ofList_toList String.ofList_toList

theorem single_line {k : Key} {extra : Option (String × String)}
    (h : ∀ p∈k++extra.toList, ValidName p.1) : '\n'∉(renderLabels k extra).toList := by
  obtain ⟨pairs, hparse, _⟩ := Option.map_eq_some_iff.mp (parseLabels_renderLabels h)
  exact Exposition.single_line (by decide) hparse

/-- No other text is read as the same pairs. -/
theorem parseLabels_inj {text text' : String} {k : Key} (h : parseLabels text=some k)
    (h' : parseLabels text'=some k) : text=text' := by
  obtain ⟨pairs, hparse, hk⟩ := Option.map_eq_some_iff.mp h
  obtain ⟨pairs', hparse', hk'⟩ := Option.map_eq_some_iff.mp h'
  have hchars : ∀ ps : List Exposition.Pair,
      (ps.map fun p => (String.ofList p.1, String.ofList p.2)).map chars=ps := by
    intro ps
    rw [List.map_map]
    refine (List.map_congr_left fun p _ => ?_).trans (List.map_id _)
    exact Prod.ext String.toList_ofList String.toList_ofList
  have hpairs : pairs=pairs' := by rw [← hchars pairs, hk, ← hk', hchars]
  rw [← String.toList_inj, ← Exposition.labelsText_of_parse hparse,
    ← Exposition.labelsText_of_parse hparse', hpairs]

end Text

section Labels
variable {labels labels' : Labels}

theorem key_perm (labels : Labels) : (key labels).Perm labels.entries :=
  List.perm_insertionSort _ _

/-- The key forgets nothing but the order of the labels. -/
theorem key_eq_iff : key labels=key labels' ↔ labels.Same labels' := by
  constructor
  · intro h k
    have hperm : labels.entries.Perm labels'.entries :=
      (key_perm labels).symm.trans (h ▸ key_perm labels')
    exact Dict.getIn_of_perm hperm labels.nodup k
  · intro h
    exact Sorting.eq_of_perm (fun _ _ _ _ he => toLex.injective he) h.perm

theorem validName_of_mem_key (h : ValidNames labels) : ∀ p∈key labels, ValidName p.1 :=
  fun _ hp => h _ (List.mem_map_of_mem ((key_perm labels).mem_iff.mp hp))

def seriesName (name : String) (k : Key) : String := name ++ renderLabels k

theorem seriesName_inj {name : String} {k k' : Key} (h : ∀ p∈k, ValidName p.1)
    (h' : ∀ p∈k', ValidName p.1) (he : seriesName name k=seriesName name k') : k=k' := by
  have hparse : ∀ {k : Key}, (∀ p∈k, ValidName p.1) → parseLabels (renderLabels k)=some k := by
    intro k hk
    have hall : ∀ p∈k++(none : Option (String × String)).toList, ValidName p.1 := by simpa using hk
    exact (parseLabels_renderLabels hall).trans (congrArg some (List.append_nil k))
  have hlabels : renderLabels k=renderLabels k' := String.append_right_inj _ |>.mp he
  have hsome := hparse h
  rw [hlabels, hparse h'] at hsome
  exact (Option.some.inj hsome).symm

end Labels

section Increments

def Counter.incAll (c : Counter) (incs : List (Labels × ℚ)) : Counter :=
  incs.foldl (fun c i => c.inc i.1 i.2) c

def incKey (i : Labels × ℚ) : Key := key i.1

theorem incAll_eq (c : Counter) (incs : List (Labels × ℚ)) :
    c.incAll incs={ c with values := incs.foldl (Dict.addTo incKey Prod.snd) c.values } := by
  induction incs generalizing c with
  | nil => rfl
  | cons i incs ih => exact ih (c.inc i.1 i.2)

/-- The lines of a counter: one for each label set that came, under a name of its own. -/
structure CounterRows (name : String) (incs : List (Labels × ℚ)) (rows : List (Key × ℚ)) :
    Prop where
  names : (rows.map fun x => seriesName name x.1).Nodup
  mem : ∀ k v, (k, v)∈rows ↔ k∈incs.map incKey ∧
    v=((incs.filter fun i => decide (incKey i=k)).map Prod.snd).sum

theorem mem_values {c : Counter} (hc : c.values=Dict.empty) (incs : List (Labels × ℚ)) {k : Key}
    {v : ℚ} : (k, v)∈(c.incAll incs).values.entries ↔ k∈incs.map incKey ∧
      v=((incs.filter fun i => decide (incKey i=k)).map Prod.snd).sum := by
  have hvalues : (c.incAll incs).values=Dict.tally incKey Prod.snd incs := by
    rw [incAll_eq, hc]
    rfl
  rw [← Dict.get_eq_some_iff, hvalues]
  by_cases hk : k∈incs.map incKey
  · rw [(Dict.get_tally incKey Prod.snd incs k).trans (if_pos hk), Option.some.injEq]
    simp only [hk, true_and, eq_comm]
  · rw [(Dict.get_tally incKey Prod.snd incs k).trans (if_neg hk)]
    simp only [hk, false_and, reduceCtorEq]

theorem counterRows (name helpText : String) {incs : List (Labels × ℚ)}
    (h : ∀ i∈incs, ValidNames i.1) : CounterRows (sanitize name) incs
      (((Counter.new name helpText).incAll incs).values.entries.insertionSort
        fun x y => keyLe x.1 y.1) := by
  have hperm := List.perm_insertionSort (fun x y : Key × ℚ => keyLe x.1 y.1)
    ((Counter.new name helpText).incAll incs).values.entries
  have hvalid : ∀ x∈((Counter.new name helpText).incAll incs).values.entries, ∀ p∈x.1,
      ValidName p.1 := by
    intro x hx
    obtain ⟨i, hi, he⟩ := List.mem_map.mp ((mem_values rfl incs).mp hx).1
    exact he ▸ validName_of_mem_key (h i hi)
  refine ⟨?_, fun k v => hperm.mem_iff.trans (mem_values rfl incs)⟩
  rw [(hperm.map _).nodup_iff]
  refine List.Nodup.map_on ?_ ((Counter.new name helpText).incAll incs).values.nodup.of_map
  intro x hx y hy he
  have hkey := seriesName_inj (hvalid x hx) (hvalid y hy) he
  exact List.inj_on_of_nodup_map ((Counter.new name helpText).incAll incs).values.nodup hx hy hkey

/-- Over names that need no change the text of the labels is one line, and the only text that is
read as them; label sets are told by the names of their series, and a counter has a line of its
own for each. -/
theorem metric_labels_recovered :
    (∀ labels extra, ValidNames labels → (∀ p∈extra, ValidName p.1) →
      '\n'∉(renderLabels (key labels) extra).toList ∧
      ∀ text, parseLabels text=some (key labels++extra.toList) ↔
        text=renderLabels (key labels) extra) ∧
    (∀ name labels labels', ValidNames labels → ValidNames labels' →
      (seriesName name (key labels)=seriesName name (key labels') ↔ labels.Same labels')) ∧
    ∀ repr name helpText incs, (∀ i∈incs, ValidNames i.1) →
      ∃ rows, CounterRows (sanitize name) incs rows ∧
        ((Counter.new name helpText).incAll incs).render repr=
          joinLines (header (sanitize name) helpText "counter" ++ rows.map fun x =>
            seriesName (sanitize name) x.1 ++ " " ++ fmt repr x.2) := by
  refine ⟨?_, ?_, ?_⟩
  · intro labels extra h hextra
    have hall : ∀ p∈key labels++extra.toList, ValidName p.1 := by
      intro p hp
      obtain hp | hp := List.mem_append.mp hp
      · exact validName_of_mem_key h p hp
      · exact hextra p (Option.mem_toList.mp hp)
    refine ⟨single_line hall, fun text => ⟨fun ht => ?_, ?_⟩⟩
    · exact parseLabels_inj ht (parseLabels_renderLabels hall)
    · rintro rfl
      exact parseLabels_renderLabels hall
  · intro name labels labels' h h'
    rw [← key_eq_iff]
    refine ⟨seriesName_inj (validName_of_mem_key h) (validName_of_mem_key h'), ?_⟩
    intro he
    rw [he]
  · intro repr name helpText incs h
    refine ⟨_, counterRows name helpText h, ?_⟩
    rw [Counter.render, incAll_eq]
    rfl

def catalogLabels : Labels := Dict.ofList [("status", "say \"no\"\n"), ("route", "/v2/catalog")]

theorem metric_labels_recovered_catalog :
    (∀ text, parseLabels text=
        some [("route", "/v2/catalog"), ("status", "say \"no\"\n"), ("le", "0.5")] ↔
      text=renderLabels (key catalogLabels) (some ("le", "0.5"))) ∧
    seriesName "hits" (key catalogLabels)≠seriesName "hits" (key Dict.empty) ∧
    ∃ rows, CounterRows (sanitize "hits") [(catalogLabels, 1)] rows := by
  have hvalid : ValidNames catalogLabels := by decide +kernel
  have hempty : ValidNames Dict.empty := by decide +kernel
  obtain ⟨htext, hseries, hrows⟩ := metric_labels_recovered
  refine ⟨fun text => ?_, ?_, ?_⟩
  · exact (htext catalogLabels (some ("le", "0.5")) hvalid
      fun p hp => Option.some.inj hp ▸ (by decide +kernel)).2 text
  · rw [Ne, hseries "hits" _ _ hvalid hempty]
    exact fun h => absurd (h "route") (by decide +kernel)
  · obtain ⟨rows, h, _⟩ := hrows (fun _ => "") "hits" "" [(catalogLabels, 1)]
      (List.forall_mem_singleton.mpr hvalid)
    exact ⟨rows, h⟩

end Increments
end Sovereign.Metrics
