import Tardis.Basic.Error
import Tardis.Json.Parse

/-! The request `multi_search` of `search_client.rs` sends: a query document put
together with `format!`, each key and value of the map written into it as it is. -/

namespace Tardis.Search

open Tardis.Json

/-- `[String]::join`: the strings after the first, each after the separator. -/
def joinRest (separator : String) : List String → String
  | [] => ""
  | s :: rest => separator ++ s ++ joinRest separator rest

/-- `[String]::join`: the strings with the separator between each two. -/
def join (separator : String) : List String → String
  | [] => ""
  | s :: rest => s ++ joinRest separator rest

/-- One clause of `multi_search`: `format!(r#"{{"match": {{"{}": "{}"}}}}"#, k, v)`. -/
def matchClause (k v : String) : String :=
  "\x7b\"match\": \x7b\"" ++ k ++ "\": \"" ++ v ++ "\"\x7d\x7d"

/-- The body `multi_search` passes to `raw_search`, for the entries of the map in
the order its iterator yields them. -/
def multiSearchBody (q : List (String × String)) : String :=
  "\x7b \"query\": \x7b \"bool\": \x7b \"must\": [" ++ join "," (q.map fun entry => matchClause entry.1 entry.2) ++
    "]\x7d\x7d\x7d"

/-- The request `raw_search` posts: the URL `{server_url}/{index_name}/_search` and the body. -/
def rawSearch (serverUrl indexName q : String) : String × String :=
  (serverUrl ++ "/" ++ indexName ++ "/_search", q)

def multiSearch (serverUrl indexName : String) (q : List (String × String)) : String × String :=
  rawSearch serverUrl indexName (multiSearchBody q)

/-- A value holding a quote ends its string early: the body for `k` ↦ `"` is
`{ "query": { "bool": { "must": [{"match": {"k": """}}]}}}`, which is no JSON. -/
theorem multiSearch_quote_rejected (serverUrl indexName : String) :
    fromStr (multiSearch serverUrl indexName [("k", "\"")]).2.data = .error "expected comma or \x7d" := by
  rfl

/-! ## The body read back

With keys and values that serde_json writes as they are, the body is the document
the client means: a `bool` query whose `must` holds one `match` per entry. -/

/-- The clause `multi_search` means for one entry. -/
def matchValue (k v : String) : Value := .object [("match", .object [(k, .string v)])]

/-- The query `multi_search` means. -/
def queryValue (q : List (String × String)) : Value :=
  .object [("query", .object [("bool", .object [("must", .array (q.map fun entry => matchValue entry.1 entry.2))])])]

/-- An entry whose key and value serde_json writes as they are. -/
def PlainEntry (entry : String × String) : Prop := (∀ c ∈ entry.1.data, Plain c) ∧ ∀ c ∈ entry.2.data, Plain c

instance : DecidablePred PlainEntry := fun entry =>
  inferInstanceAs (Decidable ((∀ c ∈ entry.1.data, Plain c) ∧ ∀ c ∈ entry.2.data, Plain c))

theorem parseValue_space (fuel : Nat) (text : List Char) :
    parseValue (fuel + 1) (' ' :: text) = parseValue (fuel + 1) text := rfl

theorem parseValue_plain (fuel : Nat) {s : String} (plain : ∀ c ∈ s.data, Plain c) (rest : List Char) :
    parseValue (fuel + 1) ('"' :: (s.data ++ '"' :: rest)) = .ok (.string s, rest) := by
  rw [parseValue_quote, ← escape_of_plain plain, parseString_escape]
  rfl

/-- An object of one member, after the spaces `pre`, its key written as it is. -/
theorem parseValue_member {fuel : Nat} (pre : List Char) (spaces : ∀ c ∈ pre, isWs c = true) {key : String}
    (plain : ∀ c ∈ key.data, Plain c) {text rest : List Char} {v : Value}
    (value : parseValue fuel text = .ok (v, '\x7d' :: rest)) :
    parseValue (fuel + 1) ('\x7b' :: (pre ++ '"' :: (key.data ++ '"' :: ':' :: text))) = .ok (.object [(key, v)], rest) := by
  obtain _ | fuel := fuel
  · cases value
  rw [parseValue_brace, skipWs, List.dropWhile_append_of_pos spaces, ← skipWs, skipWs_cons (by rfl)]
  simp only [if_neg (show '"' ≠ '\x7d' by decide), if_true]
  rw [← escape_of_plain plain, parseString_escape, ok_bind, expectColon_colon, ok_bind, value, ok_bind]
  rfl

theorem matchClause_data (k v : String) : (matchClause k v).data =
    '\x7b' :: '"' :: 'm' :: 'a' :: 't' :: 'c' :: 'h' :: '"' :: ':' :: ' ' :: '\x7b' :: '"' ::
      (k.data ++ '"' :: ':' :: ' ' :: '"' :: (v.data ++ ['"', '\x7d', '\x7d'])) := by
  simp only [matchClause, String.data_append, List.append_assoc]
  rfl

theorem multiSearchBody_data (q : List (String × String)) : (multiSearchBody q).data =
    ['\x7b', ' ', '"', 'q', 'u', 'e', 'r', 'y', '"', ':', ' ', '\x7b', ' ', '"', 'b', 'o', 'o', 'l', '"', ':', ' ',
      '\x7b', ' ', '"', 'm', 'u', 's', 't', '"', ':', ' ', '['] ++
      ((join "," (q.map fun entry => matchClause entry.1 entry.2)).data ++ [']', '\x7d', '\x7d', '\x7d']) := by
  simp only [multiSearchBody, String.data_append, List.append_assoc]

theorem parseValue_matchClause (fuel : Nat) {entry : String × String} (plain : PlainEntry entry) (rest : List Char) :
    parseValue (fuel + 3) ((matchClause entry.1 entry.2).data ++ rest) = .ok (matchValue entry.1 entry.2, rest) := by
  have string : parseValue (fuel + 1) (' ' :: '"' :: (entry.2.data ++ '"' :: '\x7d' :: '\x7d' :: rest)) =
      .ok (.string entry.2, '\x7d' :: '\x7d' :: rest) := by
    rw [parseValue_space, parseValue_plain fuel plain.2]
  have inner := parseValue_member [] (fun _ none => nomatch none) plain.1 string
  have outer := @parseValue_member (fuel + 2) [] (fun _ none => nomatch none) "match" (by decide) _ _ _
    (by rw [parseValue_space]; exact inner)
  simp only [matchClause_data, List.append_assoc, List.cons_append, List.nil_append]
  exact outer

/-- The clauses after the first, then the closing bracket. -/
theorem parseItems_clauses : ∀ (q : List (String × String)) (fuel : Nat), (∀ entry ∈ q, PlainEntry entry) →
    q.length + 3 ≤ fuel → ∀ rest : List Char,
    parseItems fuel ((joinRest "," (q.map fun entry => matchClause entry.1 entry.2)).data ++ ']' :: rest) =
      .ok (q.map fun entry => matchValue entry.1 entry.2, rest)
  | _, 0, _, enough, _ => absurd enough (by omega)
  | [], _ + 1, _, _, _ => rfl
  | entry :: q, fuel + 1, plain, enough, rest => by
    obtain ⟨more, rfl⟩ : ∃ more, fuel = more + 3 := ⟨fuel - 3, by simp only [List.length_cons] at enough; omega⟩
    have others := parseItems_clauses q (more + 3) (fun other member => plain other (List.mem_cons_of_mem _ member))
      (by simp only [List.length_cons] at enough; omega) rest
    simp only [List.map_cons, joinRest, String.data_append, List.append_assoc]
    rw [List.singleton_append, parseItems_comma, parseValue_matchClause more (plain entry (List.mem_cons_self _ _)),
      ok_bind]
    simp only [others, ok_bind]
    rfl

/-- The `must` array of the body, after its space. -/
theorem parseValue_must {q : List (String × String)} (plain : ∀ entry ∈ q, PlainEntry entry) {fuel : Nat}
    (enough : q.length + 3 ≤ fuel) (rest : List Char) :
    parseValue (fuel + 2) (' ' :: '[' :: ((join "," (q.map fun entry => matchClause entry.1 entry.2)).data ++ ']' :: rest)) =
      .ok (.array (q.map fun entry => matchValue entry.1 entry.2), rest) := by
  rw [parseValue_space, parseValue_bracket]
  cases q with
  | nil => rfl
  | cons entry q =>
    obtain ⟨more, rfl⟩ : ∃ more, fuel = more + 2 := ⟨fuel - 2, by simp only [List.length_cons] at enough; omega⟩
    have others := parseItems_clauses q (more + 3) (fun other member => plain other (List.mem_cons_of_mem _ member))
      (by simp only [List.length_cons] at enough; omega) rest
    simp only [List.map_cons, join, String.data_append, List.append_assoc]
    rw [if_neg (by rw [matchClause_data, List.cons_append, skipWs_cons (by rfl)]; simp),
      parseValue_matchClause more (plain entry (List.mem_cons_self _ _)), ok_bind]
    simp only [others, ok_bind]
    rfl

/-- A separator before each string after the first adds one character each. -/
theorem length_le_joinRest (separator : String) (nonempty : separator.data ≠ []) :
    ∀ strings : List String, strings.length ≤ (joinRest separator strings).data.length
  | [] => Nat.zero_le _
  | s :: rest => by
    have := length_le_joinRest separator nonempty rest
    have := List.length_pos.mpr nonempty
    simp only [joinRest, String.data_append, List.length_append, List.length_cons]
    omega

theorem length_le_join (separator : String) (nonempty : separator.data ≠ []) :
    ∀ strings : List String, strings.length ≤ (join separator strings).data.length + 1
  | [] => Nat.zero_le _
  | s :: rest => by
    have := length_le_joinRest separator nonempty rest
    simp only [join, String.data_append, List.length_append, List.length_cons]
    omega

theorem parseValue_multiSearchBody {q : List (String × String)} (plain : ∀ entry ∈ q, PlainEntry entry) {fuel : Nat}
    (enough : q.length + 8 ≤ fuel) :
    parseValue fuel (multiSearchBody q).data = .ok (queryValue q, []) := by
  obtain ⟨fuel, rfl⟩ : ∃ more, fuel = more + 5 := ⟨fuel - 5, by omega⟩
  have must := @parseValue_member (fuel + 2) [' '] (by decide) "must" (by decide) _ _ _
    (parseValue_must plain (by omega) ['\x7d', '\x7d', '\x7d'])
  have bool := @parseValue_member (fuel + 3) [' '] (by decide) "bool" (by decide) _ _ _
    (by rw [parseValue_space]; exact must)
  have query := @parseValue_member (fuel + 4) [' '] (by decide) "query" (by decide) _ _ _
    (by rw [parseValue_space]; exact bool)
  simp only [multiSearchBody_data, List.append_assoc, List.cons_append, List.nil_append]
  exact query

/-- With keys and values that serde_json writes as they are, the body `multi_search`
posts reads back as the query it means: one `match` clause per entry, in order. -/
theorem multiSearch_body_parses (serverUrl indexName : String) {q : List (String × String)}
    (plain : ∀ entry ∈ q, PlainEntry entry) :
    fromStr (multiSearch serverUrl indexName q).2.data = .ok (queryValue q) := by
  have long := length_le_join "," (by decide) (q.map fun entry => matchClause entry.1 entry.2)
  rw [List.length_map] at long
  have size : q.length + 8 ≤ (multiSearchBody q).data.length + 1 := by
    simp only [multiSearchBody_data, List.length_append, List.length_cons, List.length_nil]
    omega
  simp only [multiSearch, rawSearch, fromStr]
  rw [parseValue_multiSearchBody plain size]
  rfl

/-- The example of the client's documentation. -/
theorem multiSearch_body_parses_user :
    (∀ entry ∈ [("user.id", "1"), ("user.name", "李四")], PlainEntry entry) ∧
      fromStr (multiSearch "http://127.0.0.1:9200" "test_index" [("user.id", "1"), ("user.name", "李四")]).2.data =
        .ok (queryValue [("user.id", "1"), ("user.name", "李四")]) :=
  ⟨by decide, multiSearch_body_parses "http://127.0.0.1:9200" "test_index" (by decide)⟩


/-! ## The answer read back -/

/-- Modelled from the spec: `TardisFuns::json.str_to_json` is `serde_json::from_str`
into a `Value`; a text it rejects is a `FormatError` with its message. -/
def strToJson (text : String) : Except Basic.TardisError Value :=
  match fromStr text.data with
  | .ok v => .ok v
  | .error message => .error (.formatError message)

/-- `parse_search_result`: the `_source` of each hit under `hits.hits`, written as JSON. -/
def parseSearchResult (result : String) : Except Basic.TardisError (List String) := do
  let json ← strToJson result
  match (json.index "hits").index "hits" with
  | .array hits => pure (hits.map fun hit => String.mk (hit.index "_source").write)
  | _ => throw (.formatError "[Tardis.SearchClient] [hit.hit] structure not found")

/-! ## The client's requests

Every request of `TardisSearchClient` sends through its web client, turns an answer
into an error with `TardisError::new(code, body)`, and otherwise reads the body. -/

/-- Modelled from the spec: a `TardisHttpResponse<String>`, its code and body. -/
structure HttpResponse where
  code : Nat
  body : Option String

/-- Modelled from the spec: the calls of `TardisWebClient` the search client makes,
and `TardisError::new`; neither is under src/. -/
structure WebClient where
  putStrToStr : String → String → Except Basic.TardisError HttpResponse
  postStrToStr : String → String → Except Basic.TardisError HttpResponse
  getToStr : String → Except Basic.TardisError HttpResponse
  /-- `TardisError::new(code, body)`: the error an answer stands for, `None` for a success. -/
  errorOf : Nat → String → Option Basic.TardisError

/-- `TardisSearchClient`: its web client and the server's URL. -/
structure SearchClient where
  client : WebClient
  serverUrl : String

/-- The answer of a request: the error `TardisError::new` makes of it, or `read` of
its body, the empty text where it has none. -/
def readAnswer (client : WebClient) (resp : HttpResponse) (read : String → Except Basic.TardisError α) :
    Except Basic.TardisError α :=
  match client.errorOf resp.code (resp.body.getD "") with
  | some err => .error err
  | none => read (resp.body.getD "")

/-- The `_id` of an answer, which must be a string. -/
def readId (body : String) : Except Basic.TardisError String := do
  let result ← strToJson body
  match result.index "_id" with
  | .string id => pure id
  | _ => throw (.formatError "[Tardis.SearchClient] [_id] structure not found")

/-- The `_source` of an answer, written as JSON. -/
def readSource (body : String) : Except Basic.TardisError String := do
  let result ← strToJson body
  pure (String.mk (result.index "_source").write)

namespace SearchClient

/-- `create_index`. -/
def createIndex (search : SearchClient) (indexName : String) : Except Basic.TardisError Unit := do
  let resp ← search.client.putStrToStr (search.serverUrl ++ "/" ++ indexName) ""
  readAnswer search.client resp fun _ => pure ()

/-- `create_record`. -/
def createRecord (search : SearchClient) (indexName data : String) : Except Basic.TardisError String := do
  let resp ← search.client.postStrToStr (search.serverUrl ++ "/" ++ indexName ++ "/_doc/") data
  readAnswer search.client resp readId

/-- `get_record`. -/
def getRecord (search : SearchClient) (indexName id : String) : Except Basic.TardisError String := do
  let resp ← search.client.getToStr (search.serverUrl ++ "/" ++ indexName ++ "/_doc/" ++ id)
  readAnswer search.client resp readSource

/-- `simple_search`. -/
def simpleSearch (search : SearchClient) (indexName q : String) : Except Basic.TardisError (List String) := do
  let resp ← search.client.getToStr (search.serverUrl ++ "/" ++ indexName ++ "/_search?q=" ++ q)
  readAnswer search.client resp parseSearchResult

/-- `raw_search`: the request of `rawSearch` posted, its answer read. -/
def rawSearch (search : SearchClient) (indexName q : String) : Except Basic.TardisError (List String) := do
  let request := Search.rawSearch search.serverUrl indexName q
  let resp ← search.client.postStrToStr request.1 request.2
  readAnswer search.client resp parseSearchResult

/-- `multi_search`. -/
def multiSearch (search : SearchClient) (indexName : String) (q : List (String × String)) :
    Except Basic.TardisError (List String) :=
  search.rawSearch indexName (multiSearchBody q)

end SearchClient

/-- A successful answer is read from its body. -/
theorem readAnswer_success {client : WebClient} {code : Nat} {body : String} (success : client.errorOf code body = none)
    (read : String → Except Basic.TardisError α) : readAnswer client ⟨code, some body⟩ read = read body := by
  simp only [readAnswer, Option.getD_some, success]

/-- A server at `http://127.0.0.1:9200` that answers every request with `answer`,
and a `TardisError::new` that takes the codes `2xx` for a success. -/
def recordClient (answer : Value) : SearchClient where
  client := {
    putStrToStr := fun _ _ => .ok ⟨200, some (String.mk answer.write)⟩
    postStrToStr := fun _ _ => .ok ⟨201, some (String.mk answer.write)⟩
    getToStr := fun _ => .ok ⟨200, some (String.mk answer.write)⟩
    errorOf := fun code body => if 200 ≤ code ∧ code < 300 then none else some (.badRequest body) }
  serverUrl := "http://127.0.0.1:9200"

end Tardis.Search
