import Sovereign.Dict
import Sovereign.PolicyClient
import Sovereign.Text

/-! The connectors' `ingest`: a source object is copied into the staging bucket, under a key made of
the destination's prefix and of what the connector takes of the source's name. -/
namespace Sovereign.Connectors
open Sovereign

structure ResourceDescriptor where
  resourceId : String
  kind : String := ""
  metadata : List (String × Json) := []

structure IngestOptions where
  destinationBucket : String
  destinationPrefix : String := ""
  maxSizeBytes : Option Int := none

structure IngestResult where
  ok : Bool
  itemsCount : Nat := 0
  bytesTransferred : Nat := 0
  stagedPaths : List String := []
  detail : String := ""
deriving DecidableEq

structure Object where
  body : List UInt8
  contentType : Option String := none
deriving DecidableEq

/-- Objects by bucket and key. -/
abbrev Storage := Dict (String × String) Object

/-- What the client answers: the faults of its calls, and its text for a missing key. -/
structure S3Client where
  readFault : String → String → Option String := fun _ _ => none
  noSuchKey : String → String → String := fun _ _ => "NoSuchKey"
  writeFault : String → String → Option String := fun _ _ => none

def S3Client.getObject (s3 : S3Client) (w : Storage) (bucket key : String) : Except String Object :=
  match s3.readFault bucket key, w.get (bucket, key) with
  | some exc, _ => .error exc
  | none, some obj => .ok obj
  | none, none => .error (s3.noSuchKey bucket key)

inductive Reply where
  | raised (exc : String)
  | response (statusCode : Int) (payload : Except String Json)

structure GitHubClient where
  get : String → Reply
  b64decode : Json → Except String (List UInt8)
  writeFault : String → String → Option String := fun _ _ => none

def stagedUnder (destinationPrefix : String) (name : List Char) : String :=
  String.ofList (Text.lstrip '/' (Text.rstrip '/' destinationPrefix.toList++ '/'::name))

def s3StagedKey (options : IngestOptions) (srcKey : String) : String :=
  stagedUnder options.destinationPrefix srcKey.toList

def githubStagedKey (options : IngestOptions) (repo path : String) : String :=
  stagedUnder options.destinationPrefix (repo.toList++ '/'::path.toList)

def splitOnce (sep : Char) (s : List Char) : Option (List Char × List Char) :=
  match s.dropWhile fun c => decide (c≠sep) with
  | [] => none
  | _::rest => some (s.takeWhile fun c => decide (c≠sep), rest)

def rejected (detail : String) : IngestResult := { ok := false, detail }

def tooLarge (what : String) (options : IngestOptions) (body : List UInt8) : Option String :=
  (options.maxSizeBytes.filter fun m => decide (m < (body.length : Int))).map fun m =>
    what ++ " " ++ toString body.length ++ " bytes exceeds max_size_bytes=" ++ toString m

def stage (writeFault : String → String → Option String) (options : IngestOptions)
    (stagedKey : String) (obj : Object) (w : Storage) : Except String IngestResult × Storage :=
  match writeFault options.destinationBucket stagedKey with
  | some exc => (.ok (rejected ("staging write failed: " ++ exc)), w)
  | none =>
    (.ok { ok := true, itemsCount := 1, bytesTransferred := obj.body.length
           stagedPaths := [options.destinationBucket ++ "/" ++ stagedKey] },
      w.set (options.destinationBucket, stagedKey) obj)

section Ingest
variable (repr : String → String) (str : Json → String)

def s3Ingest (client : Option S3Client) (resource : ResourceDescriptor) (options : IngestOptions)
    (w : Storage) : Except String IngestResult × Storage :=
  match client with
  | none => (.error "S3Connector.connect() must run before ingest", w)
  | some s3 =>
    if resource.kind≠"object" then
      (.ok (rejected ("S3 ingest expects kind='object', got " ++ repr resource.kind)), w)
    else match splitOnce '/' resource.resourceId.toList with
    | none => (.ok (rejected "malformed resource_id"), w)
    | some (srcBucket, srcKey) =>
      match s3.getObject w (String.ofList srcBucket) (String.ofList srcKey) with
      | .error exc => (.ok (rejected ("source read failed: " ++ exc)), w)
      | .ok obj =>
        match tooLarge "object" options obj.body with
        | some detail => (.ok (rejected detail), w)
        | none => stage s3.writeFault options (s3StagedKey options (String.ofList srcKey))
            { obj with contentType := some (obj.contentType.getD "application/octet-stream") } w

def format : Json → String
  | .str s => s
  | v => str v

def fetched (client : GitHubClient) : Reply → Except String (Except String (List UInt8))
  | .raised exc => .error exc
  | .response statusCode payload =>
    if statusCode≠200 then .ok (.error ("source fetch returned " ++ toString statusCode))
    else payload.bind fun
      | .obj members =>
        match Json.lookup "content" members with
        | some content =>
          if Json.lookup "encoding" members=some (.str "base64") then
            (client.b64decode content).map .ok
          else .ok (.error "unsupported content encoding (large blob path NYI)")
        | none => .ok (.error "unsupported content encoding (large blob path NYI)")
      | _ => .error "object has no attribute 'get'"

def githubIngest (client : Option GitHubClient) (resource : ResourceDescriptor)
    (options : IngestOptions) (w : Storage) : Except String IngestResult × Storage :=
  match client with
  | none => (.error "GitHubConnector.connect() must run before ingest", w)
  | some github =>
    if resource.kind≠"file" then
      (.ok (rejected ("GitHub ingest expects kind='file', got " ++ repr resource.kind)), w)
    else match (Json.lookup "repo" resource.metadata).filter PolicyClient.pyBool,
        (Json.lookup "path" resource.metadata).filter PolicyClient.pyBool with
    | some repo, some path =>
      match fetched github
          (github.get ("/repos/" ++ format str repo ++ "/contents/" ++ format str path)) with
      | .error exc => (.error exc, w)
      | .ok (.error detail) => (.ok (rejected detail), w)
      | .ok (.ok body) =>
        match tooLarge "file" options body with
        | some detail => (.ok (rejected detail), w)
        | none => stage github.writeFault options
            (githubStagedKey options (format str repo) (format str path))
            { body, contentType := some "application/octet-stream" } w
    | _, _ => (.ok (rejected "missing repo/path in resource metadata"), w)

end Ingest

inductive Source where
  | s3 (bucket key : String)
  | github (repo path : String)
deriving DecidableEq

/-- A bucket's name has no slash; a repository's is `owner/name`. -/
def Source.WellFormed : Source → Prop
  | .s3 bucket _ => '/'∉bucket.toList
  | .github repo _ => ∃ owner name : String, repo=owner ++ "/" ++ name ∧ owner≠"" ∧
      '/'∉owner.toList ∧ '/'∉name.toList

def Source.Names (r : ResourceDescriptor) : Source → Prop
  | .s3 bucket key => r.kind="object" ∧ r.resourceId=bucket ++ "/" ++ key
  | .github repo path => r.kind="file" ∧ Json.lookup "repo" r.metadata=some (.str repo) ∧
      Json.lookup "path" r.metadata=some (.str path)

def Source.SameConnector : Source → Source → Prop
  | .s3 _ _, .s3 _ _ => True
  | .github _ _, .github _ _ => True
  | _, _ => False

def Source.stagedKey (options : IngestOptions) : Source → String
  | .s3 _ key => s3StagedKey options key
  | .github repo path => githubStagedKey options repo path

def Source.staged (options : IngestOptions) (a : Source) : String × String :=
  (options.destinationBucket, a.stagedKey options)

structure Clients where
  s3 : Option S3Client
  github : Option GitHubClient

def Source.ingest (repr : String → String) (str : Json → String) (clients : Clients) (a : Source)
    (r : ResourceDescriptor) (options : IngestOptions) (w : Storage) :
    Except String IngestResult × Storage :=
  match a with
  | .s3 _ _ => s3Ingest repr clients.s3 r options w
  | .github _ _ => githubIngest repr str clients.github r options w

section Conflation
variable (repr : String → String) (str : Json → String) (options : IngestOptions)

/-- A later ingest of `b` leaves the staged copy of `a` as it is, and is staged elsewhere. -/
def KeepsApart (a b : Source) : Prop :=
  ∀ clients clients' r r' w w' res, a.Names r → b.Names r' →
    a.ingest repr str clients r options w=(.ok res, w') → res.ok=true →
    (b.ingest repr str clients' r' options w').2.get (a.staged options)=w'.get (a.staged options) ∧
    ∀ res', (b.ingest repr str clients' r' options w').1=.ok res' → res'.ok=true →
      res'.stagedPaths≠res.stagedPaths

/-- Of two objects of buckets the keys differ, and under a prefix of slashes only they differ
behind their leading slashes too, unless the options let no object pass. -/
def Apart : Source → Source → Prop
  | .s3 _ key, .s3 _ key' =>
    (∃ m∈options.maxSizeBytes, m < 0) ∨ key≠key' ∧
      ((∀ c∈options.destinationPrefix.toList, c= '/') →
        Text.lstrip '/' key.toList≠Text.lstrip '/' key'.toList)
  | _, _ => True

end Conflation

section Keys
variable {options : IngestOptions}

theorem stagedUnder_eq_iff {destinationPrefix : String} {name name' : List Char} :
    stagedUnder destinationPrefix name=stagedUnder destinationPrefix name' ↔
      name=name' ∨ (∀ c∈destinationPrefix.toList, c= '/') ∧
        Text.lstrip '/' name=Text.lstrip '/' name' := by
  have hslash : ∀ cs, Text.lstrip '/' ('/'::cs)=Text.lstrip '/' cs := fun _ => rfl
  have hall : Text.rstrip '/' destinationPrefix.toList=[] ↔
      ∀ c∈destinationPrefix.toList, c= '/' := by
    rw [Text.rstrip, List.rdropWhile_eq_nil_iff]
    simp only [decide_eq_true_eq]
  rw [stagedUnder, stagedUnder, String.ofList_inj, Text.lstrip_rstrip_append,
    Text.lstrip_rstrip_append, ← hall]
  by_cases h : Text.rstrip '/' destinationPrefix.toList=[]
  · rw [if_pos h, if_pos h, hslash, hslash]
    simp only [h, true_and]
    refine ⟨Or.inr, fun he => ?_⟩
    obtain rfl | he := he
    · rfl
    · exact he
  · rw [if_neg h, if_neg h, List.append_cancel_left_eq, List.cons.injEq]
    simp only [h, true_and, false_and, or_false]

theorem s3StagedKey_eq_iff {key key' : String} :
    s3StagedKey options key=s3StagedKey options key' ↔
      key=key' ∨ (∀ c∈options.destinationPrefix.toList, c= '/') ∧
        Text.lstrip '/' key.toList=Text.lstrip '/' key'.toList := by
  rw [s3StagedKey, s3StagedKey, stagedUnder_eq_iff, String.toList_inj]

theorem toList_slash (x y : String) : (x ++ "/" ++ y).toList=x.toList++ '/'::y.toList := by
  rw [String.toList_append, String.toList_append, List.append_assoc]
  rfl

/-- A repository's name starts with its owner, not with a slash. -/
theorem lstrip_repo {owner name : String} (hne : owner≠"") (ho : '/'∉owner.toList)
    (rest : List Char) : Text.lstrip '/' ((owner ++ "/" ++ name).toList++rest)=
      (owner ++ "/" ++ name).toList++rest := by
  rw [toList_slash]
  cases hl : owner.toList with
  | nil => exact absurd (String.toList_eq_nil_iff.mp hl) hne
  | cons c cs =>
    have hc : ¬ decide (c= '/')=true := by
      rw [decide_eq_true_eq]
      rintro rfl
      exact ho (hl ▸ List.mem_cons_self)
    exact List.dropWhile_cons_of_neg hc

theorem githubStagedKey_inj {repo repo' path path' : String}
    (h : (Source.github repo path).WellFormed) (h' : (Source.github repo' path').WellFormed)
    (he : githubStagedKey options repo path=githubStagedKey options repo' path') :
    repo=repo' ∧ path=path' := by
  obtain ⟨owner, name, rfl, hne, ho, hn⟩ := h
  obtain ⟨owner', name', rfl, hne', ho', hn'⟩ := h'
  have hnames : (owner ++ "/" ++ name).toList++ '/'::path.toList=
      (owner' ++ "/" ++ name').toList++ '/'::path'.toList := by
    obtain h | ⟨_, h⟩ := stagedUnder_eq_iff.mp he
    · exact h
    · rw [lstrip_repo hne ho, lstrip_repo hne' ho'] at h
      exact h
  rw [toList_slash, toList_slash, List.append_assoc, List.append_assoc, List.cons_append,
    List.cons_append] at hnames
  obtain ⟨howner, hrest⟩ := Text.append_sep_inj ho ho' hnames
  obtain ⟨hname, hpath⟩ := Text.append_sep_inj hn hn' hrest
  rw [String.toList_inj.mp howner, String.toList_inj.mp hname]
  exact ⟨rfl, String.toList_inj.mp hpath⟩

end Keys

section Steps
variable {repr : String → String} {str : Json → String} {options : IngestOptions}
variable {a b : Source} {r : ResourceDescriptor} {w : Storage} {clients : Clients}

theorem splitOnce_sep {sep : Char} {xs rest : List Char} (h : sep∉xs) :
    splitOnce sep (xs++sep::rest)=some (xs, rest) := by
  have hne : ∀ c∈xs, decide (c≠sep)=true := by
    intro c hc
    rw [decide_eq_true_eq]
    rintro rfl
    exact h hc
  rw [splitOnce, List.dropWhile_append_of_pos hne, List.takeWhile_append_of_pos hne]
  simp

def Declined (w : Storage) (out : Except String IngestResult × Storage) : Prop :=
  out.2=w ∧ ∀ res, out.1=.ok res → res.ok=false

def Staged (options : IngestOptions) (key : String) (w : Storage)
    (out : Except String IngestResult × Storage) : Prop :=
  ∃ obj res, out=(.ok res, w.set (options.destinationBucket, key) obj) ∧
    res.stagedPaths=[options.destinationBucket ++ "/" ++ key]

theorem declined_rejected (w : Storage) (detail : String) :
    Declined w (.ok (rejected detail), w) := by
  refine ⟨rfl, ?_⟩
  intro res h
  cases h
  rfl

theorem declined_error (w : Storage) (exc : String) : Declined w (.error exc, w) :=
  ⟨rfl, fun _ h => nomatch h⟩

theorem stage_cases (writeFault : String → String → Option String) (key : String) (obj : Object) :
    Declined w (stage writeFault options key obj w) ∨
      Staged options key w (stage writeFault options key obj w) := by
  unfold stage
  split
  · exact Or.inl (declined_rejected w _)
  · exact Or.inr ⟨obj, _, rfl, rfl⟩

/-- A connected client reads the object that the descriptor names. -/
theorem s3Ingest_some {bucket key : String} (hb : '/'∉bucket.toList)
    (hr : (Source.s3 bucket key).Names r) (s3 : S3Client) :
    s3Ingest repr (some s3) r options w=
      match s3.getObject w bucket key with
      | .error exc => (.ok (rejected ("source read failed: " ++ exc)), w)
      | .ok obj =>
        match tooLarge "object" options obj.body with
        | some detail => (.ok (rejected detail), w)
        | none => stage s3.writeFault options (s3StagedKey options key)
            { obj with contentType := some (obj.contentType.getD "application/octet-stream") }
            w := by
  obtain ⟨hkind, hid⟩ := hr
  simp only [s3Ingest, hkind, ne_eq, not_true_eq_false, if_false, hid, toList_slash,
    splitOnce_sep hb, String.ofList_toList]

theorem s3Ingest_cases {bucket key : String} (hb : '/'∉bucket.toList)
    (hr : (Source.s3 bucket key).Names r) (client : Option S3Client) :
    Declined w (s3Ingest repr client r options w) ∨
      Staged options (s3StagedKey options key) w (s3Ingest repr client r options w) := by
  cases client with
  | none => exact Or.inl (declined_error w _)
  | some s3 =>
    rw [s3Ingest_some hb hr]
    split
    · exact Or.inl (declined_rejected w _)
    · split
      · exact Or.inl (declined_rejected w _)
      · exact stage_cases _ _ _

theorem githubIngest_cases {repo path : String} (hr : (Source.github repo path).Names r)
    (client : Option GitHubClient) :
    Declined w (githubIngest repr str client r options w) ∨
      Staged options (githubStagedKey options repo path) w
        (githubIngest repr str client r options w) := by
  obtain ⟨hkind, hrepo, hpath⟩ := hr
  unfold githubIngest
  cases client with
  | none => exact Or.inl (declined_error w _)
  | some github =>
    simp only [hkind, ne_eq, not_true_eq_false, if_false, hrepo, hpath, Option.filter_some]
    split
    · next repo' path' he he' =>
      split at he
      · split at he'
        · cases he
          cases he'
          split
          · exact Or.inl (declined_error w _)
          · exact Or.inl (declined_rejected w _)
          · split
            · exact Or.inl (declined_rejected w _)
            · exact stage_cases _ _ _
        · cases he'
      · cases he
    · exact Or.inl (declined_rejected w _)

variable (repr str options w clients) in
/-- An ingest stages its source under its key, or nothing. -/
theorem ingest_cases (ha : a.WellFormed) (hr : a.Names r) :
    Declined w (a.ingest repr str clients r options w) ∨
      Staged options (a.stagedKey options) w (a.ingest repr str clients r options w) := by
  cases a with
  | s3 bucket key => exact s3Ingest_cases ha hr clients.s3
  | github repo path => exact githubIngest_cases hr clients.github

variable (repr str clients) in
theorem staged_of_ok {res : IngestResult} {w' : Storage} (ha : a.WellFormed) (hr : a.Names r)
    (h : a.ingest repr str clients r options w=(.ok res, w')) (hok : res.ok=true) :
    res.stagedPaths=[options.destinationBucket ++ "/" ++ a.stagedKey options] := by
  obtain ⟨_, hno⟩ | ⟨obj, res', he, hpaths⟩ := ingest_cases repr str options w clients ha hr
  · rw [h] at hno
    rw [hno res rfl] at hok
    cases hok
  · rw [h] at he
    cases he
    exact hpaths

theorem ingest_frame (hb : b.WellFormed) (hr : b.Names r) {place : String × String}
    (hne : place≠b.staged options) :
    (b.ingest repr str clients r options w).2.get place=w.get place := by
  obtain ⟨he, _⟩ | ⟨obj, res, he, _⟩ := ingest_cases repr str options w clients hb hr
  · rw [he]
  · rw [he]
    exact (Dict.get_set _ _ _ _).trans (if_neg hne)

theorem keepsApart_of_key_ne (ha : a.WellFormed) (hb : b.WellFormed)
    (hne : a.stagedKey options≠b.stagedKey options) : KeepsApart repr str options a b := by
  intro clients clients' r r' w w' res hr hr' h hok
  refine ⟨ingest_frame hb hr' fun he => hne (Prod.ext_iff.mp he).2, ?_⟩
  intro res' h' hok' he
  rw [staged_of_ok repr str clients' hb hr' (Prod.ext h' rfl) hok',
    staged_of_ok repr str clients ha hr h hok, List.cons.injEq,
    String.append_right_inj] at he
  exact hne he.1.symm

variable (repr) in
theorem s3Ingest_ok {bucket key : String} (hb : '/'∉bucket.toList)
    (hr : (Source.s3 bucket key).Names r) {obj : Object} (hobj : w.get (bucket, key)=some obj)
    (hsize : tooLarge "object" options obj.body=none) :
    ∃ res obj', s3Ingest repr (some {}) r options w=
        (.ok res, w.set (options.destinationBucket, s3StagedKey options key) obj') ∧
      res.ok=true ∧ obj'.body=obj.body := by
  simp only [s3Ingest_some hb hr, S3Client.getObject, hobj, hsize]
  exact ⟨_, _, rfl, rfl, rfl⟩

theorem tooLarge_empty (what : String) (h : ∀ m∈options.maxSizeBytes, 0 ≤ m) :
    tooLarge what options []=none := by
  rw [tooLarge, Option.map_eq_none_iff, Option.filter_eq_none_iff]
  intro m hm
  simpa using h m hm

theorem tooLarge_negative (what : String) {m : Int} (hm : m∈options.maxSizeBytes) (hneg : m < 0)
    (body : List UInt8) : tooLarge what options body≠none := by
  have hlt : m < (body.length : Int) := by omega
  rw [tooLarge, Option.mem_def.mp hm, Option.filter_some, if_pos (decide_eq_true hlt)]
  exact Option.some_ne_none _

theorem s3Ingest_negative {bucket key : String} (hb : '/'∉bucket.toList)
    (hr : (Source.s3 bucket key).Names r) {m : Int} (hm : m∈options.maxSizeBytes) (hneg : m < 0)
    (client : Option S3Client) : Declined w (s3Ingest repr client r options w) := by
  cases client with
  | none => exact declined_error w _
  | some s3 =>
    rw [s3Ingest_some hb hr]
    split
    · exact declined_rejected w _
    · split
      · exact declined_rejected w _
      · next h => exact absurd h (tooLarge_negative "object" hm hneg _)

theorem get_set_body {place place' : String × String} {obj obj' : Object}
    (h : w.get place=some obj) (hbody : obj'.body=obj.body) :
    ∃ x, (w.set place' obj').get place=some x ∧ x.body=obj.body := by
  rw [Dict.get_set]
  by_cases he : place=place'
  · rw [if_pos he]
    exact ⟨obj', rfl, hbody⟩
  · rw [if_neg he]
    exact ⟨obj, h, rfl⟩

theorem key_ne_of_keepsApart {bucket key bucket' key' : String} (hb : '/'∉bucket.toList)
    (hb' : '/'∉bucket'.toList) (hmax : ∀ m∈options.maxSizeBytes, 0 ≤ m)
    (h : KeepsApart repr str options (.s3 bucket key) (.s3 bucket' key')) :
    s3StagedKey options key≠s3StagedKey options key' := by
  intro hkey
  let clients : Clients := ⟨some {}, none⟩
  let empty : Object := { body := [] }
  let w : Storage := (Dict.empty.set (bucket', key') empty).set (bucket, key) empty
  have hr : (Source.s3 bucket key).Names
      { resourceId := bucket ++ "/" ++ key, kind := "object" } := ⟨rfl, rfl⟩
  have hr' : (Source.s3 bucket' key').Names
      { resourceId := bucket' ++ "/" ++ key', kind := "object" } := ⟨rfl, rfl⟩
  have hsize := tooLarge_empty "object" hmax
  obtain ⟨res, copy, hin, hok, hcopy⟩ :=
    s3Ingest_ok repr hb hr (Dict.get_set_self _ _ empty) hsize
  -- the second source is still there, whatever the first ingest has overwritten
  have hfirst : ∃ x, w.get (bucket', key')=some x ∧ x.body=[] :=
    get_set_body (Dict.get_set_self _ _ empty) rfl
  obtain ⟨x, hx, hxbody⟩ := hfirst
  obtain ⟨y, hy, hybody⟩ := get_set_body hx (hcopy.trans hxbody.symm)
  obtain ⟨res', copy', hin', hok', _⟩ :=
    s3Ingest_ok repr hb' hr' hy ((hybody.trans hxbody) ▸ hsize)
  have hpaths := (h clients clients _ _ w _ res hr hr' hin hok).2 res'
    (congrArg Prod.fst hin') hok'
  refine hpaths ?_
  rw [staged_of_ok repr str clients (a := .s3 bucket key) hb hr hin hok,
    staged_of_ok repr str clients (a := .s3 bucket' key') hb' hr' hin' hok']
  exact congrArg (fun key => [options.destinationBucket ++ "/" ++ key]) hkey.symm

end Steps

/-- Two sources of one connector are kept apart exactly where the names that the connector takes
differ. -/
theorem ingest_apart_iff (repr : String → String) (str : Json → String) (options : IngestOptions)
    (a b : Source) (ha : a.WellFormed) (hb : b.WellFormed) (hsame : a.SameConnector b)
    (hne : a≠b) : KeepsApart repr str options a b ↔ Apart options a b := by
  cases a with
  | s3 bucket key =>
    cases b with
    | github _ _ => exact hsame.elim
    | s3 bucket' key' =>
      constructor
      · intro h
        by_cases hmax : ∀ m∈options.maxSizeBytes, 0 ≤ m
        · have hkey := key_ne_of_keepsApart ha hb hmax h
          rw [Ne, s3StagedKey_eq_iff, not_or, not_and] at hkey
          exact Or.inr hkey
        · push Not at hmax
          exact Or.inl hmax
      · intro h
        obtain ⟨m, hm, hneg⟩ | h := h
        · intro clients clients' r r' w w' res hr _ hin hok
          have hno := (s3Ingest_negative ha hr hm hneg clients.s3).2 res (congrArg Prod.fst hin)
          rw [hok] at hno
          cases hno
        · refine keepsApart_of_key_ne ha hb ?_
          change s3StagedKey options key≠s3StagedKey options key'
          rw [Ne, s3StagedKey_eq_iff, not_or, not_and]
          exact h
  | github repo path =>
    cases b with
    | s3 _ _ => exact hsame.elim
    | github repo' path' =>
      refine iff_of_true (keepsApart_of_key_ne ha hb ?_) trivial
      intro he
      obtain ⟨rfl, rfl⟩ := githubStagedKey_inj ha hb he
      exact hne rfl

theorem ingest_apart_reports :
    KeepsApart id (fun _ => "") { destinationBucket := "staging" }
      (.s3 "bucket-a" "2026/jan.csv") (.s3 "bucket-b" "2026/feb.csv") ↔
    Apart { destinationBucket := "staging" }
      (.s3 "bucket-a" "2026/jan.csv") (.s3 "bucket-b" "2026/feb.csv") :=
  ingest_apart_iff id (fun _ => "") { destinationBucket := "staging" }
    (.s3 "bucket-a" "2026/jan.csv") (.s3 "bucket-b" "2026/feb.csv")
    (show '/'∉"bucket-a".toList by decide) (show '/'∉"bucket-b".toList by decide)
    trivial (by decide)

/-- Reports of one name in two buckets, and two keys of one bucket of which one starts with a
slash. -/
theorem ingest_conflates :
    ¬ KeepsApart id (fun _ => "") { destinationBucket := "staging", destinationPrefix := "ingest/" }
      (.s3 "bucket-a" "report.csv") (.s3 "bucket-b" "report.csv") ∧
    ¬ KeepsApart id (fun _ => "") { destinationBucket := "staging" }
      (.s3 "bucket-a" "report.csv") (.s3 "bucket-a" "/report.csv") := by
  have hmax : ∀ m∈(none : Option Int), 0 ≤ m := fun m hm => by cases hm
  constructor
  · exact fun h => key_ne_of_keepsApart (by decide) (by decide) hmax h rfl
  · exact fun h => key_ne_of_keepsApart (by decide) (by decide) hmax h (by decide)

end Sovereign.Connectors
