import PostgresTestHarness.Catalog.Name

/-! The URL of the administrative database, and the URLs made from it.

The `url` crate and the client that is given a URL are not the harness's: `UrlCrate` and
`UrlClient` say what they are asked, `UrlClient.Reads` what is relied on. The database in the
path is not the last word: a client goes on to the query's parameters, and `dbname` is one of
them. -/
namespace PostgresTestHarness

/-- A URL's components. -/
structure Url where
  scheme : Text
  host : Option Text
  path : Text
  query : Option Text
  fragment : Option Text
  deriving DecidableEq

/-- The `url` crate. -/
structure UrlCrate where
  /-- `Url::parse`. -/
  parse : Text → Option Url
  /-- `Url::to_string`. -/
  print : Url → Text
  /-- What `Url::set_path` makes of a path. -/
  encodePath : Text → Text

namespace Url

/-- `Url::set_path`. -/
def setPath (crate : UrlCrate) (url : Url) (path : Text) : Url := { url with path := crate.encodePath path }

/-- `Url::set_fragment`. -/
def setFragment (url : Url) (fragment : Option Text) : Url := { url with fragment }

end Url

/-- `str::trim_matches` of one character. -/
def trimMatches (c : Char) (s : Text) : Text := ((s.dropWhile (· == c)).reverse.dropWhile (· == c)).reverse

/-- Why `AdminDatabaseUrl::parse` refuses a URL. -/
def AdminDatabaseUrl.rejection (url : Url) : Option Text :=
  if url.scheme ≠ "postgres".toList ∧ url.scheme ≠ "postgresql".toList then
    some "the URL scheme must be postgres or postgresql".toList
  else if url.host.isNone then some "the URL must contain a host".toList
  else if (trimMatches '/' url.path).isEmpty then
    some "the URL must identify an administrative database".toList
  else none

structure AdminDatabaseUrl where
  url : Url
  valid : AdminDatabaseUrl.rejection url = none

namespace AdminDatabaseUrl

def parse (crate : UrlCrate) (value : Text) : Except Error AdminDatabaseUrl :=
  match crate.parse value with
  | none => .error (.invalidAdminDatabaseUrl "the value must be an absolute PostgreSQL URL".toList)
  | some url =>
    match h : rejection url with
    | some reason => .error (.invalidAdminDatabaseUrl reason)
    | none => .ok ⟨url, h⟩

def databaseUrl (crate : UrlCrate) (admin : AdminDatabaseUrl) (databaseName : DatabaseName) : Text :=
  crate.print ((admin.url.setPath crate ('/' :: databaseName.value)).setFragment none)

end AdminDatabaseUrl

/-! ### Whoever is given the URL -/

/-- A PostgreSQL client that takes URLs. -/
structure UrlClient where
  /-- The database it connects to; none when it does not accept the URL. -/
  database : Text → Option Text
  /-- The parameters it reads in a query, in order; none when it does not accept them. -/
  parameters : Text → Option (List (Text × Text))

/-- `dbname` is the parameter that names the database. -/
def applyParameter (database : Text) : Text × Text → Text
  | (key, value) => if key = "dbname".toList then value else database

def UrlClient.queryParameters (client : UrlClient) (query : Option Text) : Option (List (Text × Text)) :=
  match query with
  | none => some []
  | some query => client.parameters query

/-- What is relied on: a path of plain characters stays as it is, and the client takes the
database from the path of an accepted URL that the crate has printed without a fragment, and then
applies the parameters. -/
structure UrlClient.Reads (client : UrlClient) (crate : UrlCrate) : Prop where
  plain : ∀ name : Text, (∀ c ∈ name, isNameChar c = true) → crate.encodePath ('/' :: name) = '/' :: name
  database : ∀ value admin, AdminDatabaseUrl.parse crate value = .ok admin → ∀ name : Text, name ≠ [] →
    (∀ c ∈ name, isNameChar c = true) →
    client.database (crate.print { admin.url with path := '/' :: name, fragment := none }) =
      (client.queryParameters admin.url.query).map fun parameters => parameters.foldl applyParameter name

/-- The value of the last `dbname`. -/
def lastDbname : List (Text × Text) → Option Text
  | [] => none
  | (key, value) :: rest => (lastDbname rest).or (if key = "dbname".toList then some value else none)

section Database
variable {crate : UrlCrate} {client : UrlClient}

theorem foldl_applyParameter (parameters : List (Text × Text)) (database : Text) :
    parameters.foldl applyParameter database = (lastDbname parameters).getD database := by
  induction parameters generalizing database with
  | nil => rfl
  | cons parameter rest ih =>
    obtain ⟨key, value⟩ := parameter
    rw [List.foldl_cons, ih, lastDbname]
    cases hlast : lastDbname rest with
    | some last => rfl
    | none =>
      by_cases hkey : key = "dbname".toList
      · simp only [applyParameter, if_pos hkey, Option.none_or, Option.getD]
      · simp only [applyParameter, if_neg hkey, Option.none_or, Option.getD]

theorem parse_ok {value : Text} {admin : AdminDatabaseUrl} (h : AdminDatabaseUrl.parse crate value = .ok admin) :
    crate.parse value = some admin.url := by
  unfold AdminDatabaseUrl.parse at h
  split at h
  · cases h
  · rename_i url hurl
    split at h
    · cases h
    · cases h
      exact hurl

theorem DatabaseName.plain (name : DatabaseName) : name.value ≠ [] ∧ ∀ c ∈ name.value, isNameChar c = true := by
  have h := name.valid
  simp only [validDatabaseName, Bool.and_eq_true, Bool.not_eq_true', List.isEmpty_eq_false_iff, List.all_eq_true] at h
  exact ⟨h.1.1, h.2⟩

/-- The client connects to what the last `dbname` says, and to the database if there is none. -/
theorem database_databaseUrl (hclient : client.Reads crate) {value : Text} {admin : AdminDatabaseUrl}
    (h : AdminDatabaseUrl.parse crate value = .ok admin) (name : DatabaseName) :
    client.database (admin.databaseUrl crate name) =
      (client.queryParameters admin.url.query).map fun parameters => (lastDbname parameters).getD name.value := by
  obtain ⟨hne, hchars⟩ := name.plain
  have hread := hclient.database value admin h name.value hne hchars
  simp only [foldl_applyParameter] at hread
  rw [← hread, AdminDatabaseUrl.databaseUrl, Url.setPath, Url.setFragment, hclient.plain name.value hchars]

/-- A client of `database_url` connects to the database exactly where the query, as the client reads it,
names no other. -/
theorem database_url_connects_iff (hclient : client.Reads crate) {value : Text} {admin : AdminDatabaseUrl}
    (h : AdminDatabaseUrl.parse crate value = .ok admin) (name : DatabaseName) :
    client.database (admin.databaseUrl crate name) = some name.value ↔
      ∃ parameters, client.queryParameters admin.url.query = some parameters ∧
        ∀ database, lastDbname parameters = some database → database = name.value := by
  rw [database_databaseUrl hclient h, Option.map_eq_some_iff]
  refine exists_congr fun parameters => and_congr_right fun _ => ?_
  cases lastDbname parameters with
  | none => simp
  | some database => simp

end Database

/-! ### A query that names a database -/

def sharedUrl : Text := "postgres://localhost/postgres?dbname=shared".toList

/-- The crate, on this one URL. -/
def sampleCrate : UrlCrate where
  parse value :=
    if value = sharedUrl then
      some ⟨"postgres".toList, some "localhost".toList, "/postgres".toList, some "dbname=shared".toList, none⟩
    else none
  print url := url.scheme ++ ("://".toList ++ (url.host.getD [] ++ (url.path ++
    ((url.query.map ('?' :: ·)).getD [] ++ (url.fragment.map ('#' :: ·)).getD []))))
  encodePath path := path

/-- Parameters without escapes. -/
def readParameters (query : Text) : Option (List (Text × Text)) := (query.splitOn '&').mapM (splitOnce '=')

/-- A client, on URLs that begin with `postgres://`. -/
def sampleClient : UrlClient where
  database value :=
    match splitOnce '/' (value.drop 11) with
    | none => none
    | some (_, rest) =>
      match splitOnce '?' rest with
      | none => some rest
      | some (name, query) => (readParameters query).map fun parameters => parameters.foldl applyParameter name
  parameters := readParameters

theorem sampleClient_reads : sampleClient.Reads sampleCrate where
  plain _ _ := rfl
  database value admin h name _ hchars := by
    obtain ⟨_, hurl⟩ := Option.ite_none_right_eq_some.mp (parse_ok h)
    rw [← Option.some.inj hurl]
    have hhost : splitOnce '/' ("localhost".toList ++ '/' :: (name ++ '?' :: "dbname=shared".toList)) =
        some ("localhost".toList, name ++ '?' :: "dbname=shared".toList) :=
      splitOnce_eq_some.mpr ⟨rfl, by decide⟩
    have hname : splitOnce '?' (name ++ '?' :: "dbname=shared".toList) = some (name, "dbname=shared".toList) := by
      rw [splitOnce_eq_some]
      refine ⟨rfl, fun hmem => ?_⟩
      exact absurd (hchars '?' hmem) (by decide)
    have hprint : (sampleCrate.print ⟨"postgres".toList, some "localhost".toList, '/' :: name,
        some "dbname=shared".toList, none⟩).drop 11 =
          "localhost".toList ++ '/' :: (name ++ '?' :: "dbname=shared".toList) := rfl
    simp only [sampleClient, hprint, hhost, hname]
    rfl

def sharedAdmin : AdminDatabaseUrl :=
  ⟨⟨"postgres".toList, some "localhost".toList, "/postgres".toList, some "dbname=shared".toList, none⟩, by decide⟩

theorem parse_sharedUrl : AdminDatabaseUrl.parse sampleCrate sharedUrl = .ok sharedAdmin := rfl

def aLease : DatabaseName := .managed ⟨"shop".toList, rejection_shop⟩ .test (List.replicate 32 '0') (by decide)

theorem database_url_connects_iff_shared :
    sampleClient.database (sharedAdmin.databaseUrl sampleCrate aLease) = some aLease.value ↔
      ∃ parameters, sampleClient.queryParameters sharedAdmin.url.query = some parameters ∧
        ∀ database, lastDbname parameters = some database → database = aLease.value :=
  database_url_connects_iff sampleClient_reads parse_sharedUrl aLease

/-- The URL is accepted, and the URL of the lease leads to `shared`. -/
theorem dbname_overrides : sampleClient.Reads sampleCrate ∧
    AdminDatabaseUrl.parse sampleCrate sharedUrl = .ok sharedAdmin ∧
    sampleClient.database (sharedAdmin.databaseUrl sampleCrate aLease) = some "shared".toList ∧
    sampleClient.database (sharedAdmin.databaseUrl sampleCrate aLease) ≠ some aLease.value := by
  have hshared : sampleClient.database (sharedAdmin.databaseUrl sampleCrate aLease) = some "shared".toList := by
    rw [database_databaseUrl sampleClient_reads parse_sharedUrl aLease]
    rfl
  refine ⟨sampleClient_reads, parse_sharedUrl, hshared, ?_⟩
  rw [hshared]
  decide

end PostgresTestHarness
