import Sovereign.MetricLabels
import Sovereign.Trace
import Mathlib

/-! The request metrics of a service: what the middleware counts, what `/metrics` answers, and what
a scraper reads there. The endpoint runs in a thread of its own, so that it may come between the
two updates of a request; an update is one step here, and so is the rendering. -/
namespace Sovereign.Observability
open Metrics

structure Registry where
  counters : Dict String Counter := Dict.empty
  histograms : Dict String Histogram := Dict.empty

/-- A counter that is there stays. -/
def Registry.counter (r : Registry) (name helpText : String) : Registry :=
  { r with counters :=
      r.counters.set name ((r.counters.get name).getD (Counter.new name helpText)) }

def Registry.histogram (r : Registry) (name helpText : String) (buckets : List Edge) : Registry :=
  { r with histograms :=
      r.histograms.set name ((r.histograms.get name).getD (Histogram.new name helpText buckets)) }

def Registry.render (repr : ℚ → String) (r : Registry) : Option String := do
  let histograms ← (r.histograms.entries.map Prod.snd).mapM (Histogram.render repr)
  return String.join (r.counters.entries.map (fun p => p.2.render repr) ++ histograms)

def edge (q : ℚ) : Edge := ((q : WithTop ℚ) : Edge)

def defaultBuckets : List Edge :=
  [1/200, 1/100, 1/40, 1/20, 1/10, 1/4, 1/2, 1, 5/2, 5, 10].map edge

def labelName (name : String) : String :=
  String.ofList (name.toList.map fun c => if c∈nameRe ∧ c ≠ ':' then c else '_')

def suffix (labels : Key) : String :=
  let labelText := String.intercalate "," (labels.map fun p =>
    labelName p.1 ++ "=\"" ++ labelValue p.2 ++ "\"")
  if labelText="" then "" else "\x7b" ++ labelText ++ "\x7d"

def gauge (name description : String) (value : Int) (labels : Labels) : String :=
  "# HELP " ++ sanitize name ++ " " ++ description ++ "\n# TYPE " ++ sanitize name ++ " gauge\n" ++
    sanitize name ++ suffix (key labels) ++ " " ++ toString value ++ "\n"

def serviceLabels (service : String) : Labels := Dict.ofList [("service", service)]

def spaced (name : String) : String :=
  String.ofList (name.toList.map fun c => if c= '_' then ' ' else c)

def serviceMetrics (service : String) (healthy : Bool) (extraGauges : Dict String Int) : String :=
  gauge "sovereign_service_up" "Service liveness reported by the application process."
      (if healthy then 1 else 0) (serviceLabels service) ++
    String.join ((extraGauges.entries.insertionSort fun p q => toLex p ≤ toLex q).map fun p =>
      gauge ("sovereign_" ++ p.1) ("Sovereign Platform " ++ spaced p.1 ++ ".") p.2
        (serviceLabels service))

def metrics (repr : ℚ → String) (service : String) (extraGauges : Dict String Int)
    (registry : Registry) : Option String :=
  (registry.render repr).map fun text => serviceMetrics service true extraGauges ++ text

structure Handled where
  service : String
  method : String
  route : String
  status : Nat
  duration : ℚ

def requestsTotal : String := "sovereign_http_requests_total"

def durationSeconds : String := "sovereign_http_request_duration_seconds"

def requestLabels (h : Handled) : Labels :=
  Dict.ofList [("service", h.service), ("method", h.method), ("route", h.route),
    ("status", toString h.status)]

def routeLabels (h : Handled) : Labels :=
  Dict.ofList [("service", h.service), ("method", h.method), ("route", h.route)]

/-- A middleware is built, or does one of the two updates of a request. -/
inductive Event where
  | built
  | counted (h : Handled)
  | observed (h : Handled)

def step (r : Registry) : Event → Registry
  | .built => (r.counter requestsTotal "Total HTTP requests handled.").histogram durationSeconds
    "HTTP request duration in seconds." defaultBuckets
  | .counted h =>
    match r.counters.get requestsTotal with
    | none => r
    | some c => { r with counters := r.counters.set requestsTotal (c.inc (requestLabels h)) }
  | .observed h =>
    match r.histograms.get durationSeconds with
    | none => r
    | some d =>
      { r with histograms :=
          r.histograms.set durationSeconds (d.observe h.duration (routeLabels h)) }

/-! What a scraper reads: line by line a name, labels and a value; the rest is comment. -/

structure Sample where
  name : String
  labels : Key
  value : String
deriving DecidableEq

def readSample (line : List Char) : Option Sample :=
  let front := (line.rdropWhile fun c => decide (c ≠ ' ')).dropLast
  (parseLabels (String.ofList (front.dropWhile fun c => decide (c∈nameRe)))).map fun labels =>
    { name := String.ofList (front.takeWhile fun c => decide (c∈nameRe)), labels,
      value := String.ofList (line.rtakeWhile fun c => decide (c ≠ ' ')) }

def readLine (line : List Char) : Option (List Sample) :=
  if line=[] ∨ line.head?=some '#' then some [] else (readSample line).map fun s => [s]

def readSamples (text : String) : Option (List Sample) :=
  ((text.toList.splitOn '\n').mapM readLine).map List.flatten

structure Shows (lines : List String) (samples : List Sample) : Prop where
  single : ∀ l∈lines, '\n'∉l.toList
  read : ((lines.map String.toList).mapM readLine).map List.flatten=some samples

def textOf (lines : List String) : String := String.join (lines.map (· ++ "\n"))

theorem toList_textOf (lines : List String) :
    (textOf lines).toList=lines.flatMap fun l => l.toList++['\n'] := by
  induction lines with
  | nil => rfl
  | cons l lines ih =>
    rw [textOf, List.map_cons, String.join_cons, String.toList_append, String.toList_append,
      List.flatMap_cons, ← ih]
    rfl

theorem textOf_append (xs ys : List String) : textOf (xs++ys)=textOf xs ++ textOf ys := by
  rw [← String.toList_inj, String.toList_append, toList_textOf, toList_textOf, toList_textOf,
    List.flatMap_append]

theorem joinLines_eq {lines : List String} (h : lines≠[]) : joinLines lines=textOf lines := by
  obtain ⟨before, last, rfl⟩ := (List.eq_nil_or_concat' lines).resolve_left h
  rw [← String.toList_inj, toList_textOf, joinLines, String.toList_append,
    String.toList_intercalate, List.map_append]
  change ['\n'].intercalate (before.map String.toList++[last.toList])++['\n']=_
  rw [Exposition.intercalate_concat, List.flatMap_append, List.flatMap_map]
  simp

theorem Shows.nil : Shows [] [] := ⟨(fun _ h => by cases h), rfl⟩

theorem Shows.append {xs ys : List String} {ss ts : List Sample} (hx : Shows xs ss)
    (hy : Shows ys ts) : Shows (xs++ys) (ss++ts) := by
  obtain ⟨chunks, hchunks, rfl⟩ := Option.map_eq_some_iff.mp hx.read
  obtain ⟨chunks', hchunks', rfl⟩ := Option.map_eq_some_iff.mp hy.read
  refine ⟨List.forall_mem_append.mpr ⟨hx.single, hy.single⟩, ?_⟩
  rw [List.map_append, List.mapM_append, hchunks, hchunks', ← List.flatten_append]
  rfl

theorem Shows.flatMap {β : Type*} {xs : List β} {f : β → List String} {g : β → List Sample}
    (h : ∀ x∈xs, Shows (f x) (g x)) : Shows (xs.flatMap f) (xs.flatMap g) := by
  induction xs with
  | nil => exact .nil
  | cons x xs ih =>
    obtain ⟨hx, hxs⟩ := List.forall_mem_cons.mp h
    exact hx.append (ih hxs)

theorem Shows.map {β : Type*} {xs : List β} {f : β → String} {g : β → Sample}
    (h : ∀ x∈xs, Shows [f x] [g x]) : Shows (xs.map f) (xs.map g) := by
  rw [List.map_eq_flatMap, List.map_eq_flatMap]
  exact .flatMap h

theorem splitOn_textOf {lines : List String} (h : ∀ l∈lines, '\n'∉l.toList) :
    (textOf lines).toList.splitOn '\n'=lines.map String.toList++[[]] := by
  rw [toList_textOf]
  induction lines with
  | nil => rfl
  | cons l lines ih =>
    obtain ⟨hl, hlines⟩ := List.forall_mem_cons.mp h
    rw [List.flatMap_cons, List.append_assoc, List.singleton_append,
      List.splitOn_append_cons_self_of_not_mem hl, ih hlines]
    rfl

theorem readSamples_textOf {lines : List String} {samples : List Sample}
    (h : Shows lines samples) : readSamples (textOf lines)=some samples := by
  obtain ⟨chunks, hchunks, rfl⟩ := Option.map_eq_some_iff.mp h.read
  rw [readSamples, splitOn_textOf h.single, List.mapM_append, hchunks]
  simp [readLine]

theorem rspan_blank (front : List Char) {value : List Char} (h : ∀ c∈value, c ≠ ' ') :
    (front++ ' ' ::value).rtakeWhile (fun c => decide (c ≠ ' '))=value ∧
      (front++ ' ' ::value).rdropWhile (fun c => decide (c ≠ ' '))=front++[' '] := by
  have hall : ∀ c∈value.reverse, decide (c ≠ ' ')=true := by
    intro c hc
    exact decide_eq_true (h c (List.mem_reverse.mp hc))
  have hrev : (front++ ' ' ::value).reverse=value.reverse++ ' ' ::front.reverse := by simp
  constructor
  · rw [List.rtakeWhile, hrev, List.takeWhile_append_of_pos hall]
    simp
  · rw [List.rdropWhile, hrev, List.dropWhile_append_of_pos hall]
    simp

theorem span_name {name rest : List Char} (h : ∀ c∈name, c∈nameRe)
    (hrest : ∀ c∈rest.head?, decide (c∈nameRe)=false) :
    (name++rest).takeWhile (fun c => decide (c∈nameRe))=name ∧
      (name++rest).dropWhile (fun c => decide (c∈nameRe))=rest := by
  have hall : ∀ c∈name, decide (c∈nameRe)=true := fun c hc => decide_eq_true (h c hc)
  rw [List.takeWhile_append_of_pos hall, List.dropWhile_append_of_pos hall]
  cases rest with
  | nil => simp
  | cons c rest => simp [hrest c rfl]

theorem Shows.sample {name value : String} {k : Key} {extra : Option (String × String)}
    (hname : ValidName name) (hne : name≠"") (hk : ∀ p∈k++extra.toList, ValidName p.1)
    (hvalue : ∀ c∈value.toList, c ≠ ' ' ∧ c ≠ '\n') :
    Shows [name ++ renderLabels k extra ++ " " ++ value] [⟨name, k++extra.toList, value⟩] := by
  have hline : (name ++ renderLabels k extra ++ " " ++ value).toList=
      name.toList++(renderLabels k extra).toList++ ' ' ::value.toList := by
    simp [String.toList_append]
  have hlabels : ∀ c∈(renderLabels k extra).toList.head?, decide (c∈nameRe)=false := by
    intro c hc
    rw [toList_renderLabels hk, Exposition.labelsText] at hc
    split at hc
    · cases hc
    · cases hc
      decide
  obtain ⟨htake, hdrop⟩ := span_name hname hlabels
  obtain ⟨hvalue', hfront⟩ := rspan_blank (name.toList++(renderLabels k extra).toList)
    fun c hc => (hvalue c hc).1
  have hread : readSample (name ++ renderLabels k extra ++ " " ++ value).toList=
      some ⟨name, k++extra.toList, value⟩ := by
    rw [hline, readSample]
    simp only [hfront, List.dropLast_concat, htake, hdrop, hvalue', String.ofList_toList,
      parseLabels_renderLabels hk, Option.map_some]
  have hsome : ¬((name ++ renderLabels k extra ++ " " ++ value).toList=[] ∨
      (name ++ renderLabels k extra ++ " " ++ value).toList.head?=some '#') := by
    rw [hline]
    cases hn : name.toList with
    | nil => exact absurd (String.toList_eq_nil_iff.mp hn) hne
    | cons c cs =>
      have hc : c∈nameRe := hname c (by simp [hn])
      have hc' : c ≠ '#' := by
        rintro rfl
        exact absurd hc (by decide)
      simp [hc']
  refine ⟨fun l hl => ?_, ?_⟩
  · rw [List.mem_singleton.mp hl, hline]
    simp only [List.mem_append, List.mem_cons, not_or]
    refine ⟨⟨fun hm => absurd (hname _ hm) (by decide), Metrics.single_line hk⟩, by decide, ?_⟩
    exact fun hm => (hvalue _ hm).2 rfl
  · rw [List.map_singleton, List.mapM_cons, readLine, if_neg hsome, hread]
    rfl

theorem Shows.series (name : String) {value : String} {k : Key} (hname : ValidName name)
    (hne : name≠"") (hk : ∀ p∈k, ValidName p.1) (hvalue : ∀ c∈value.toList, c ≠ ' ' ∧ c ≠ '\n') :
    Shows [name ++ renderLabels k ++ " " ++ value] [⟨name, k, value⟩] := by
  have hall : ∀ p∈k++(none : Option (String × String)).toList, ValidName p.1 := by simpa using hk
  have hs := Shows.sample hname hne hall hvalue
  rwa [Option.toList_none, List.append_nil] at hs

theorem Shows.comment {line : String} (h : line.toList.head?=some '#')
    (hl : '\n'∉line.toList) : Shows [line] [] := by
  refine ⟨fun l hm => ?_, ?_⟩
  · rwa [List.mem_singleton.mp hm]
  · simp [readLine, h]

structure FloatText where
  repr : ℚ → String
  plain : ∀ q, ∀ c∈(repr q).toList, c ≠ ' ' ∧ c ≠ '\n'

theorem plain_int (n : Int) : ∀ c∈(toString n).toList, c ≠ ' ' ∧ c ≠ '\n' := by
  intro c hc
  constructor
  · rintro rfl
    exact absurd (Text.mem_toString_int hc) (by decide)
  · rintro rfl
    exact absurd (Text.mem_toString_int hc) (by decide)

theorem plain_nat (n : Nat) : ∀ c∈(toString n).toList, c ≠ ' ' ∧ c ≠ '\n' := plain_int n

theorem plain_fmt (f : FloatText) (q : ℚ) :
    ∀ c∈(fmt f.repr q).toList, c ≠ ' ' ∧ c ≠ '\n' := by
  rw [fmt]
  split
  · exact plain_int q.num
  · exact f.plain q

theorem fmt_nat (repr : ℚ → String) (n : Nat) : fmt repr n=toString n := by
  rw [fmt, if_pos (Rat.den_natCast n), Rat.num_natCast]
  rfl

theorem validName_sanitize (name : String) : ValidName (sanitize name) := by
  intro c hc
  rw [sanitize, String.toList_ofList] at hc
  obtain ⟨d, _, rfl⟩ := List.mem_map.mp hc
  split
  · assumption
  · decide

theorem sanitize_ne {name : String} (h : name≠"") : sanitize name≠"" := by
  intro he
  have hlist := congrArg String.toList he
  rw [sanitize, String.toList_ofList] at hlist
  exact h (String.toList_eq_nil_iff.mp (List.map_eq_nil_iff.mp hlist))

theorem newline_validName {name : String} (h : ValidName name) : '\n'∉name.toList :=
  fun hm => absurd (h _ hm) (by decide)

theorem Shows.header {name help kind : String} (hname : ValidName name) (hhelp : '\n'∉help.toList)
    (hkind : '\n'∉kind.toList) : Shows (Metrics.header name help kind) [] := by
  have hnl := newline_validName hname
  refine (Shows.comment ?_ ?_).append (Shows.comment ?_ ?_)
  · simp [String.toList_append]
  · simp [String.toList_append, hnl, hhelp]
  · simp [String.toList_append]
  · simp [String.toList_append, hnl, hkind]

def gaugeSample (service name : String) (value : Int) : Sample :=
  ⟨sanitize name, [("service", service)], toString value⟩

def gaugeLines (service name description : String) (value : Int) : List String :=
  header (sanitize name) description "gauge"++
    [sanitize name ++ renderLabels [("service", service)] ++ " " ++ toString value]

theorem key_serviceLabels (service : String) :
    key (serviceLabels service)=[("service", service)] := by
  have hentries : (serviceLabels service).entries=[("service", service)] := rfl
  unfold key
  rw [hentries]
  simp only [List.insertionSort_cons, List.insertionSort_nil, List.orderedInsert_nil]

theorem suffix_eq (service : String) :
    suffix [("service", service)]=renderLabels [("service", service)] := by
  have hlabel : labelName "service"=sanitize "service" := by decide +kernel
  have hne : sanitize "service" ++ "=\"" ++ labelValue service ++ "\""≠"" := by
    intro h
    have hlist := congrArg String.toList h
    rw [String.toList_append] at hlist
    simp at hlist
  rw [suffix, List.map_singleton, hlabel]
  change (if String.intercalate "," [_]="" then _ else _)=_
  rw [String.intercalate_singleton, if_neg hne]
  rfl

theorem gauge_eq (service name description : String) (value : Int) :
    gauge name description value (serviceLabels service)=
      textOf (gaugeLines service name description value) := by
  unfold gauge gaugeLines header
  rw [key_serviceLabels, suffix_eq]
  generalize renderLabels [("service", service)]=labels
  rw [← String.toList_inj, toList_textOf]
  simp [String.toList_append]

theorem validName_of_all {name : String} (h : name.toList.all (fun c => decide (c∈nameRe))=true) :
    ValidName name :=
  fun c hc => of_decide_eq_true (List.all_eq_true.mp h c hc)

theorem labelNames_valid : ∀ name∈["method", "route", "service", "status"], ValidName name := by
  have hall : ["method", "route", "service", "status"].all (fun name =>
      name.toList.all fun c => decide (c∈nameRe))=true := by decide +kernel
  exact fun name hname => validName_of_all (List.all_eq_true.mp hall name hname)

theorem service_valid (service : String) : ∀ p∈[("service", service)], ValidName p.1 := by
  intro p hp
  rw [List.mem_singleton.mp hp]
  exact labelNames_valid _ (by simp)

theorem gauge_shows (service : String) {name description : String} (hname : name≠"")
    (hdescription : '\n'∉description.toList) (value : Int) :
    Shows (gaugeLines service name description value) [gaugeSample service name value] := by
  have hvalid := validName_sanitize name
  exact (Shows.header hvalid hdescription (by decide)).append
    (Shows.series _ hvalid (sanitize_ne hname) (service_valid service) (plain_int value))

def gaugeSamples (service : String) (extraGauges : Dict String Int) : List Sample :=
  gaugeSample service "sovereign_service_up" 1::
    (extraGauges.entries.insertionSort fun p q => toLex p ≤ toLex q).map fun p =>
      gaugeSample service ("sovereign_" ++ p.1) p.2

theorem textOf_flatMap {β : Type*} (xs : List β) (f : β → List String) :
    textOf (xs.flatMap f)=String.join (xs.map fun x => textOf (f x)) := by
  induction xs with
  | nil => rfl
  | cons x xs ih => rw [List.flatMap_cons, textOf_append, ih, List.map_cons, String.join_cons]

theorem newline_spaced {name : String} (h : '\n'∉name.toList) : '\n'∉(spaced name).toList := by
  rw [spaced, String.toList_ofList]
  intro hm
  obtain ⟨c, hc, he⟩ := List.mem_map.mp hm
  split at he
  · cases he
  · exact h (he ▸ hc)

theorem serviceMetrics_shows (service : String) {extraGauges : Dict String Int}
    (h : ∀ name∈extraGauges.keys, '\n'∉name.toList) :
    ∃ lines, serviceMetrics service true extraGauges=textOf lines ∧
      Shows lines (gaugeSamples service extraGauges) := by
  refine ⟨gaugeLines service "sovereign_service_up"
      "Service liveness reported by the application process." 1++
    (extraGauges.entries.insertionSort fun p q => toLex p ≤ toLex q).flatMap fun p =>
      gaugeLines service ("sovereign_" ++ p.1) ("Sovereign Platform " ++ spaced p.1 ++ ".") p.2,
    ?_, ?_⟩
  · rw [textOf_append, textOf_flatMap, ← gauge_eq]
    simp only [← gauge_eq]
    rfl
  · refine Shows.append (gauge_shows service (by decide) (by decide +kernel) 1) ?_
    rw [List.map_eq_flatMap]
    refine Shows.flatMap fun p hp => gauge_shows service ?_ ?_ p.2
    · intro he
      have hlist := congrArg String.toList he
      simp [String.toList_append] at hlist
    · have hname := h p.1 (List.mem_map_of_mem ((List.mem_insertionSort _).mp hp))
      simp [String.toList_append, newline_spaced hname]

def requestKey (h : Handled) : Key :=
  [("method", h.method), ("route", h.route), ("service", h.service), ("status", toString h.status)]

def routeKey (h : Handled) : Key :=
  [("method", h.method), ("route", h.route), ("service", h.service)]

theorem key_eq_of_sorted {labels : Labels} {k : Key} (hp : labels.entries.Perm k)
    (hk : k.Pairwise fun p q => p.1 < q.1) : key labels=k := by
  have hle : k.Pairwise fun p q => toLex p ≤ toLex q :=
    hk.imp fun h => Prod.Lex.toLex_le_toLex.mpr (.inl h)
  have hsort := Sorting.eq_of_perm (f := toLex) (fun _ _ _ _ he => toLex.injective he) hp
  exact hsort.trans (List.Pairwise.insertionSort_eq hle)

theorem key_requestLabels (h : Handled) : key (requestLabels h)=requestKey h := by
  have hentries : (requestLabels h).entries=[("service", h.service), ("method", h.method),
      ("route", h.route), ("status", toString h.status)] := Dict.entries_ofList (by simp)
  refine key_eq_of_sorted ?_ ?_
  · rw [hentries, requestKey]
    exact (List.Perm.swap _ _ _).trans ((List.Perm.swap _ _ _).cons _)
  · simp only [requestKey, List.pairwise_cons, List.forall_mem_cons]
    decide +kernel

theorem key_routeLabels (h : Handled) : key (routeLabels h)=routeKey h := by
  have hentries : (routeLabels h).entries=[("service", h.service), ("method", h.method),
      ("route", h.route)] := Dict.entries_ofList (by simp)
  refine key_eq_of_sorted ?_ ?_
  · rw [hentries, routeKey]
    exact (List.Perm.swap _ _ _).trans ((List.Perm.swap _ _ _).cons _)
  · simp only [routeKey, List.pairwise_cons, List.forall_mem_cons]
    decide +kernel

structure Listed (ks all : List Key) : Prop where
  ordered : ks.Pairwise fun k k' => keyLe k k' ∧ k≠k'
  mem : ∀ k, k∈ks ↔ k∈all

def requestSample (hs : List Handled) (k : Key) : Sample :=
  ⟨requestsTotal, k, toString (hs.countP fun h => decide (requestKey h=k))⟩

def requestCounter (hs : List Handled) : Counter :=
  (Counter.new requestsTotal "Total HTTP requests handled.").incAll
    (hs.map fun h => (requestLabels h, 1))

theorem validName_requestsTotal : ValidName requestsTotal := validName_of_all (by decide +kernel)

theorem requestKey_valid (h : Handled) : ∀ p∈requestKey h, ValidName p.1 := by
  intro p hp
  exact labelNames_valid p.1 (List.mem_map_of_mem (f := Prod.fst) hp)

theorem incKey_requests (hs : List Handled) :
    (hs.map fun h => (requestLabels h, (1 : ℚ))).map incKey=hs.map requestKey := by
  rw [List.map_map]
  exact List.map_congr_left fun h _ => key_requestLabels h

theorem sum_requests (hs : List Handled) (k : Key) :
    (((hs.map fun h => (requestLabels h, (1 : ℚ))).filter
      fun i => decide (incKey i=k)).map Prod.snd).sum=
      ((hs.countP fun h => decide (requestKey h=k) : Nat) : ℚ) := by
  have hkey : ∀ h, incKey (requestLabels h, (1 : ℚ))=requestKey h := key_requestLabels
  rw [List.filter_map, List.map_map, List.countP_eq_length_filter]
  simp only [Function.comp_def, hkey, List.map_const', List.sum_replicate, nsmul_eq_mul, mul_one]

theorem requestCounter_shows (f : FloatText) (hs : List Handled) :
    ∃ lines ks, (requestCounter hs).render f.repr=textOf lines ∧ Listed ks (hs.map requestKey) ∧
      Shows lines (ks.map (requestSample hs)) := by
  have hfields : (requestCounter hs).name=requestsTotal ∧
      (requestCounter hs).help="Total HTTP requests handled." := by
    rw [requestCounter, incAll_eq]
    exact ⟨sanitize_eq validName_requestsTotal, rfl⟩
  have hmem : ∀ k v, (k, v)∈(requestCounter hs).values.entries ↔ k∈hs.map requestKey ∧
      v=((hs.countP fun h => decide (requestKey h=k) : Nat) : ℚ) := by
    intro k v
    rw [← incKey_requests, ← sum_requests]
    exact mem_values rfl _
  have hperm := List.perm_insertionSort (fun x y : Key × ℚ => keyLe x.1 y.1)
    (requestCounter hs).values.entries
  have hsorted := Sorting.sorted_by (fun x : Key × ℚ => x.1.map toLex)
    (requestCounter hs).values.entries
  have hvalid : ∀ k∈hs.map requestKey, ∀ p∈k, ValidName p.1 := by
    intro k hk
    obtain ⟨h, _, rfl⟩ := List.mem_map.mp hk
    exact requestKey_valid h
  generalize hrows : ((requestCounter hs).values.entries.insertionSort fun x y => keyLe x.1 y.1)=
    rows at hperm
  have hsorted : rows.Pairwise fun x y => keyLe x.1 y.1 := hrows ▸ hsorted
  have hrow : ∀ x∈rows, x.1∈hs.map requestKey ∧
      x.2=((hs.countP fun h => decide (requestKey h=x.1) : Nat) : ℚ) :=
    fun x hx => (hmem x.1 x.2).mp (hperm.mem_iff.mp hx)
  refine ⟨header requestsTotal "Total HTTP requests handled." "counter"++rows.map fun x =>
    requestsTotal ++ renderLabels x.1 ++ " " ++ fmt f.repr x.2, rows.map Prod.fst, ?_, ?_, ?_⟩
  · rw [Counter.render, hfields.1, hfields.2, joinLines_eq (by simp [header]), hrows]
  · refine ⟨?_, fun k => ?_⟩
    · rw [List.pairwise_map]
      refine hsorted.and ?_
      rw [← List.pairwise_map (R := fun a b => a≠b)]
      exact (hperm.map Prod.fst).nodup_iff.mpr (requestCounter hs).values.nodup
    · rw [List.mem_map]
      constructor
      · rintro ⟨x, hx, rfl⟩
        exact (hrow x hx).1
      · intro hk
        exact ⟨(k, _), hperm.mem_iff.mpr ((hmem k _).mpr ⟨hk, rfl⟩), rfl⟩
  · refine (Shows.header validName_requestsTotal (by decide +kernel) (by decide +kernel)).append ?_
    rw [List.map_map]
    refine Shows.map fun x hx => ?_
    have hcount := fmt_nat f.repr (hs.countP fun h => decide (requestKey h=x.1))
    rw [← (hrow x hx).2] at hcount
    have hshow := Shows.series _ validName_requestsTotal (by decide) (hvalid x.1 (hrow x hx).1)
      (plain_fmt f x.2)
    rwa [hcount] at hshow ⊢

def durationHistogram (hs : List Handled) : Histogram :=
  (Histogram.new durationSeconds "HTTP request duration in seconds." defaultBuckets).observeAll
    (hs.map fun h => (h.duration, routeLabels h))

def durationsAt (hs : List Handled) (k : Key) : List ℚ :=
  (hs.filter fun h => decide (routeKey h=k)).map Handled.duration

def durationSamples (repr : ℚ → String) (hs : List Handled) (k : Key) : List Sample :=
  ((defaultBuckets.insertionSort (· ≤ ·)).map fun e =>
    ⟨durationSeconds ++ "_bucket", k++[("le", fmtEdge repr e)],
      toString (Buckets.count AtMost (durationsAt hs k) e)⟩)++
  [⟨durationSeconds ++ "_bucket", k++[("le", "+Inf")], toString (durationsAt hs k).length⟩,
    ⟨durationSeconds ++ "_sum", k, fmt repr (durationsAt hs k).sum⟩,
    ⟨durationSeconds ++ "_count", k, toString (durationsAt hs k).length⟩]

theorem validName_durationSeconds : ValidName durationSeconds :=
  validName_of_all (by decide +kernel)

theorem routeKey_valid (h : Handled) : ∀ p∈routeKey h, ValidName p.1 := by
  intro p hp
  have hname := List.mem_map_of_mem (f := Prod.fst) hp
  exact labelNames_valid p.1 (List.mem_append_left ["status"] hname)

theorem keyOf_durations (hs : List Handled) :
    (hs.map fun h => (h.duration, routeLabels h)).map keyOf=hs.map routeKey := by
  rw [List.map_map]
  exact List.map_congr_left fun h _ => key_routeLabels h

theorem valuesAt_durations (hs : List Handled) (k : Key) :
    valuesAt (hs.map fun h => (h.duration, routeLabels h)) k=durationsAt hs k := by
  have hkey : ∀ h, keyOf (h.duration, routeLabels h)=routeKey h := key_routeLabels
  rw [valuesAt, List.filter_map, List.map_map, durationsAt]
  simp only [Function.comp_def, hkey]

theorem bucket_shows {k : Key} (hk : ∀ p∈k, ValidName p.1) (le : String) (n : Nat) :
    Shows [Histogram.bucketLine durationSeconds k le n]
      [⟨durationSeconds ++ "_bucket", k++[("le", le)], toString n⟩] := by
  have hle : ValidName "le" := validName_of_all (by decide +kernel)
  have hall : ∀ p∈k++(some ("le", le)).toList, ValidName p.1 := by
    intro p hp
    obtain hp | hp := List.mem_append.mp hp
    · exact hk p hp
    · rw [Option.toList_some, List.mem_singleton] at hp
      rw [hp]
      exact hle
  exact Shows.sample (validName_of_all (by decide +kernel)) (by decide +kernel) hall (plain_nat n)

theorem series_shows (f : FloatText) (hs : List Handled) (h : Handled) :
    Shows (series f.repr (Histogram.new durationSeconds "HTTP request duration in seconds."
      defaultBuckets) (routeKey h) (durationsAt hs (routeKey h)))
      (durationSamples f.repr hs (routeKey h)) := by
  have hname : sanitize durationSeconds=durationSeconds := sanitize_eq validName_durationSeconds
  have hk := routeKey_valid h
  rw [series, durationSamples]
  simp only [Histogram.new, hname]
  generalize durationsAt hs (routeKey h)=durations
  have hsum := Shows.series (durationSeconds ++ "_sum")
    (validName_of_all (by decide +kernel)) (by decide +kernel) hk (plain_fmt f durations.sum)
  have hcount := Shows.series (durationSeconds ++ "_count")
    (validName_of_all (by decide +kernel)) (by decide +kernel) hk (plain_nat durations.length)
  exact (Shows.map fun e _ => bucket_shows hk _ _).append
    ((bucket_shows hk "+Inf" _).append (hsum.append hcount))

theorem durationHistogram_shows (f : FloatText) (hs : List Handled) :
    ∃ lines ks, (durationHistogram hs).render f.repr=some (textOf lines) ∧
      Listed ks (hs.map routeKey) ∧ Shows lines (ks.flatMap (durationSamples f.repr hs)) := by
  have hname : sanitize durationSeconds=durationSeconds := sanitize_eq validName_durationSeconds
  have hrender : (durationHistogram hs).render f.repr=_ :=
    render_observeAll durationSeconds "HTTP request duration in seconds." defaultBuckets rfl
  rw [joinLines_eq (by simp [header]), hname] at hrender
  have hmem : ∀ k, k∈(durationHistogram hs).counts.keys.insertionSort keyLe ↔
      k∈hs.map routeKey := by
    intro k
    rw [List.mem_insertionSort, ← keyOf_durations]
    exact mem_keys_observeAll _ _ _
  refine ⟨_, _, hrender, ⟨sorted_keys (durationHistogram hs).counts.nodup, hmem⟩, ?_⟩
  refine (Shows.header validName_durationSeconds (by decide +kernel) (by decide +kernel)).append ?_
  refine Shows.flatMap fun k hk => ?_
  obtain ⟨h, _, rfl⟩ := List.mem_map.mp ((hmem k).mp hk)
  rw [valuesAt_durations]
  exact series_shows f hs h

/-- The requests that were counted, and those whose durations were observed. -/
def counted (es : List Event) : List Handled :=
  es.filterMap fun
    | .counted h => some h
    | _ => none

def observed (es : List Event) : List Handled :=
  es.filterMap fun
    | .observed h => some h
    | _ => none

def registryOf (hs os : List Handled) : Registry :=
  { counters := Dict.empty.set requestsTotal (requestCounter hs)
    histograms := Dict.empty.set durationSeconds (durationHistogram os) }

theorem requests_registryOf (hs os : List Handled) :
    (registryOf hs os).counters.get requestsTotal=some (requestCounter hs) :=
  Dict.get_set_self _ _ _

theorem durations_registryOf (hs os : List Handled) :
    (registryOf hs os).histograms.get durationSeconds=some (durationHistogram os) :=
  Dict.get_set_self _ _ _

theorem set_single {α : Type*} (k : String) (v w : α) :
    (Dict.empty.set k v).set k w=Dict.empty.set k w := by
  refine Dict.ext ?_
  simp [Dict.set, Dict.setIn, Dict.empty]

theorem step_registryOf (hs os : List Handled) (e : Event) :
    step (registryOf hs os) e=registryOf (hs++counted [e]) (os++observed [e]) := by
  cases e with
  | built =>
    have hr := Dict.set_of_get (requests_registryOf hs os)
    have hd := Dict.set_of_get (durations_registryOf hs os)
    simp only [step, Registry.counter, Registry.histogram, requests_registryOf,
      durations_registryOf, Option.getD_some, hr, hd]
    simp [counted, observed]
  | counted h =>
    have hc : (requestCounter hs).inc (requestLabels h)=requestCounter (hs++[h]) := by
      simp [requestCounter, Counter.incAll]
    simp only [step, requests_registryOf, hc]
    simp [registryOf, counted, observed, set_single]
  | observed h =>
    have hd : (durationHistogram os).observe h.duration (routeLabels h)=
        durationHistogram (os++[h]) := by
      simp [durationHistogram, Histogram.observeAll]
    simp only [step, durations_registryOf, hd]
    simp [registryOf, counted, observed, set_single]

theorem exec_registryOf (hs os : List Handled) (es : List Event) :
    Trace.exec step (registryOf hs os) es=registryOf (hs++counted es) (os++observed es) := by
  induction es generalizing hs os with
  | nil => simp [Trace.exec, counted, observed]
  | cons e es ih =>
    have hcounted : counted [e]++counted es=counted (e::es) := List.filterMap_append.symm
    have hobserved : observed [e]++observed es=observed (e::es) := List.filterMap_append.symm
    calc
      Trace.exec step (registryOf hs os) (e::es)=
          Trace.exec step (registryOf (hs++counted [e]) (os++observed [e])) es := by
        rw [Trace.exec, step_registryOf]
      _=registryOf (hs++counted [e]++counted es) (os++observed [e]++observed es) := ih _ _
      _=registryOf (hs++counted (e::es)) (os++observed (e::es)) := by
        rw [List.append_assoc, List.append_assoc, hcounted, hobserved]

theorem exec_built (es : List Event) :
    Trace.exec step {} (.built::es)=registryOf (counted es) (observed es) := by
  have hstart : step {} .built=registryOf [] [] := rfl
  rw [Trace.exec, hstart, exec_registryOf, List.nil_append, List.nil_append]

theorem sum_statuses (hs : List Handled) {ks : List Key} (hks : Listed ks (hs.map requestKey))
    (r : Key) : ((ks.filter fun k => decide (k.take 3=r)).map fun k =>
      hs.countP fun h => decide (requestKey h=k)).sum=
      hs.countP fun h => decide (routeKey h=r) := by
  have hnodup : (ks.filter fun k => decide (k.take 3=r)).Nodup :=
    (hks.ordered.imp And.right).filter _
  have hcover : ∀ h∈hs.filter (fun h => decide (routeKey h=r)),
      requestKey h∈ks.filter fun k => decide (k.take 3=r) := by
    intro h hh
    obtain ⟨hmem, hr⟩ := List.mem_filter.mp hh
    exact List.mem_filter.mpr ⟨(hks.mem _).mpr (List.mem_map_of_mem hmem), hr⟩
  -- A request of the label set is one of the route.
  have hroute : ∀ k∈ks.filter (fun k => decide (k.take 3=r)),
      (hs.countP fun h => decide (requestKey h=k))=
        ((hs.filter fun h => decide (routeKey h=r)).filter fun h =>
          decide (requestKey h=k)).length := by
    intro k hk
    have hr : k.take 3=r := of_decide_eq_true (List.mem_filter.mp hk).2
    rw [List.countP_eq_length_filter, List.filter_filter]
    refine congrArg List.length (List.filter_congr fun h _ => ?_)
    by_cases he : requestKey h=k
    · have hroute : routeKey h=r := by
        rw [← hr, ← he]
        rfl
      simp [he, hroute]
    · simp [he]
  have hsum := Dict.sum_by_key requestKey (fun _ => (1 : ℤ)) hnodup hcover
  simp only [List.map_const', List.sum_replicate, nsmul_eq_mul, mul_one] at hsum
  rw [List.map_congr_left hroute, List.countP_eq_length_filter, ← Nat.cast_inj (R := ℤ),
    Nat.cast_list_sum, List.map_map]
  exact hsum

/-- In whatever order the updates of the requests come, between them those of one request too, the
text of `/metrics` is read as exactly these samples: the gauges; for each label set of a counted
request the number of these; for each route observed the distribution of the durations. Over its
statuses, a route sums up to the requests counted on it, and so to the number of its durations
if no request is between its updates. -/
theorem scrape_recovered (f : FloatText) (service : String) (extraGauges : Dict String Int)
    (hgauges : ∀ name∈extraGauges.keys, '\n'∉name.toList) (es : List Event) :
    ∃ body ks rs, metrics f.repr service extraGauges (Trace.exec step {} (.built::es))=some body ∧
      readSamples body=some (gaugeSamples service extraGauges++
        (ks.map (requestSample (counted es))++rs.flatMap (durationSamples f.repr (observed es)))) ∧
      Listed ks ((counted es).map requestKey) ∧ Listed rs ((observed es).map routeKey) ∧
      (∀ r, ((ks.filter fun k => decide (k.take 3=r)).map fun k =>
        (counted es).countP fun h => decide (requestKey h=k)).sum=
        (counted es).countP fun h => decide (routeKey h=r)) ∧
      ((counted es).Perm (observed es) → ∀ r,
        ((counted es).countP fun h => decide (routeKey h=r))=
          (durationsAt (observed es) r).length) := by
  obtain ⟨gaugeText, hgauge, hgaugeShows⟩ := serviceMetrics_shows service hgauges
  obtain ⟨requestText, ks, hrequest, hks, hrequestShows⟩ := requestCounter_shows f (counted es)
  obtain ⟨durationText, rs, hduration, hrs, hdurationShows⟩ :=
    durationHistogram_shows f (observed es)
  have hrender : (registryOf (counted es) (observed es)).render f.repr=
      some (textOf requestText ++ textOf durationText) := by
    have hcounters : (registryOf (counted es) (observed es)).counters.entries=
        [(requestsTotal, requestCounter (counted es))] := rfl
    have hhistograms : (registryOf (counted es) (observed es)).histograms.entries=
        [(durationSeconds, durationHistogram (observed es))] := rfl
    simp only [Registry.render, hcounters, hhistograms, List.map_cons, List.map_nil,
      List.mapM_cons, List.mapM_nil, hduration, hrequest]
    rfl
  refine ⟨textOf (gaugeText++(requestText++durationText)), ks, rs, ?_,
    readSamples_textOf (hgaugeShows.append (hrequestShows.append hdurationShows)), hks, hrs,
    sum_statuses (counted es) hks, fun hperm r => ?_⟩
  · rw [exec_built, metrics, hrender, hgauge, textOf_append, textOf_append]
    rfl
  · rw [hperm.countP_eq, durationsAt, List.length_map, List.countP_eq_length_filter]

def anyFloat : FloatText where
  repr _ := "0.5"
  plain _ := fun c hc => by
    have hall : "0.5".toList.all (fun c => decide (c ≠ ' ' ∧ c ≠ '\n'))=true := by decide +kernel
    exact of_decide_eq_true (List.all_eq_true.mp hall c hc)

def brokerGauges : Dict String Int := Dict.ofList [("broker_packs_registered", 9)]

def listed (status : Nat) : Handled := ⟨"broker", "GET", "/v2/instances", status, 1/2⟩

/-- The second request has been counted only, when the text is asked for. -/
theorem scrape_recovered_broker :
    ∃ (body : String) (ks rs : List Key), metrics anyFloat.repr "broker" brokerGauges
        (Trace.exec step {} [.built, .counted (listed 200), .observed (listed 200),
          .counted (listed 500)])=some body ∧
      readSamples body=some (gaugeSamples "broker" brokerGauges++
        (ks.map (requestSample [listed 200, listed 500])++
          rs.flatMap (durationSamples anyFloat.repr [listed 200]))) := by
  have hgauges : ∀ name∈brokerGauges.keys, '\n'∉name.toList := by
    intro name hname
    have hkeys : brokerGauges.keys=["broker_packs_registered"] := rfl
    rw [hkeys, List.mem_singleton] at hname
    rw [hname]
    decide +kernel
  obtain ⟨body, ks, rs, hbody, hread, _⟩ := scrape_recovered anyFloat "broker" brokerGauges hgauges
    [.counted (listed 200), .observed (listed 200), .counted (listed 500)]
  exact ⟨body, ks, rs, hbody, hread⟩

end Sovereign.Observability
