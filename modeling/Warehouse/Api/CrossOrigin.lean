/-
# Warehouse.Api.CrossOrigin — which origins may share resources

The configuration names the origins as one comma-separated text, which `loadServerConfiguration`
takes apart with positions of its own; the HTTP layer compares the `Origin` of a request with the
list that came out (`applyCors` of `legacy_http_server.cpp`).  What the text means is
`configuredOrigins`; the loop yields its distinct entries, and with them the HTTP layer answers the
configured origins and no others.
-/
import Mathlib.Data.List.DropRight
import Warehouse.Bootstrap.Configuration

namespace Warehouse.Bootstrap

/-! ## What the setting means -/

/-- A text without the white space at both its ends. -/
def trimmed (value : Bytes) : Bytes := (value.dropWhile isspace).rdropWhile isspace

/-- The comma-separated segments of the setting, trimmed; none when it is not set. -/
def configuredOrigins (source : ConfigurationSource) : List Bytes :=
  match source (lit "WAREHOUSE_CORS_ALLOWED_ORIGINS") with
  | none => []
  | some cors => (cors.splitOn 44).map trimmed

/-! ## The helper `trim` -/

/-- Dropping from the end, with a count as `trim` finds it. -/
theorem rdropWhile_eq_take (p : UInt8 → Bool) (value : Bytes) :
    value.rdropWhile p =
      value.take (value.length - value.reverse.findIdx fun c => !p c) := by
  rw [List.rdropWhile, List.dropWhile_eq_drop_findIdx_not, List.reverse_drop, List.length_reverse,
    List.reverse_reverse]

/-- Both ends that `trim` looks for are those of the trimmed text. -/
theorem trim_eq_trimmed (value : Bytes) : trim value = trimmed value := by
  have hleft : value.dropWhile isspace = value.drop (value.findIdx fun c => !isspace c) :=
    List.dropWhile_eq_drop_findIdx_not
  simp only [trim, trimmed, rdropWhile_eq_take, hleft, List.length_drop]
  by_cases hblank : ∀ c ∈ value, isspace c = true
  · -- a blank text: the first search runs to the end
    have hall : value.findIdx (fun c => !isspace c) = value.length :=
      List.findIdx_eq_length_of_false fun c hc => by simp [hblank c hc]
    simp [hall]
  · have hexists : ∃ c ∈ value, (!isspace c) = true := by simpa using hblank
    have hfirst : value.findIdx (fun c => !isspace c) < value.length :=
      List.findIdx_lt_length_of_exists hexists
    -- the byte that ends the first search ends the other one as well
    have hrest : ∃ c ∈ (value.drop (value.findIdx fun c => !isspace c)).reverse,
        (!isspace c) = true := by
      refine ⟨value[value.findIdx fun c => !isspace c], ?_, ?_⟩
      · rw [List.mem_reverse, List.drop_eq_getElem_cons hfirst]
        exact List.mem_cons_self
      · exact List.findIdx_getElem (p := fun c => !isspace c)
    have hlast := List.findIdx_lt_length_of_exists hrest
    have hreverse : value.reverse.findIdx (fun c => !isspace c) =
        (value.drop (value.findIdx fun c => !isspace c)).reverse.findIdx fun c => !isspace c := by
      rw [← List.take_append_drop (value.findIdx fun c => !isspace c) value, List.reverse_append,
        List.findIdx_append, List.take_append_drop, if_pos hlast]
    rw [List.length_reverse, List.length_drop] at hlast
    rw [← hreverse] at hlast ⊢
    rw [if_pos (by omega)]
    congr 1
    omega

/-! ## The loop over the segments -/

/-- The loop takes what is left of the text apart at its commas. -/
theorem originsFrom_eq {cors : Bytes} {turns start : ℕ} (hstart : start ≤ cors.length)
    (hturns : cors.length < start + turns) (state : List Bytes × List ConfigurationIssue) :
    originsFrom cors turns start state = ((cors.drop start).splitOn 44).foldl addOrigin state := by
  induction turns generalizing start state with
  | zero => omega
  | succ turns ih =>
      simp only [originsFrom, if_pos hstart, find]
      cases hfind : (cors.drop start).findIdx? (· == 44) with
      | none =>
          have hcomma : 44 ∉ cors.drop start := by
            intro hmem
            simpa using List.findIdx?_eq_none_iff.mp hfind 44 hmem
          rw [List.splitOn_eq_singleton hcomma]
          rfl
      | some i =>
          obtain ⟨hi, hcomma, hbefore⟩ := List.findIdx?_eq_some_iff_getElem.mp hfind
          have hlength : i < cors.length - start := by simpa using hi
          -- the segment ends before the comma, and the next one starts behind it
          have hsplit : (cors.drop start).splitOn 44 =
              (cors.drop start).take i :: (cors.drop (start + i + 1)).splitOn 44 := by
            have hsegment : 44 ∉ (cors.drop start).take i := by
              intro hmem
              obtain ⟨j, hj, heq⟩ := List.mem_take_iff_getElem.mp hmem
              exact hbefore j (by omega) (by simp [heq])
            have hrest : (cors.drop start).drop (i + 1) = cors.drop (start + i + 1) := by
              rw [List.drop_drop, Nat.add_assoc]
            rw [← hrest, ← List.splitOn_append_cons_self_of_not_mem hsegment,
              ← eq_of_beq hcomma, ← List.drop_eq_getElem_cons hi, List.take_append_drop]
          rw [hsplit]
          simp only [Option.map_some, substr, Nat.add_sub_cancel_left, List.foldl_cons]
          exact ih (by omega) (by omega) _

/-- An origin that the loop keeps. -/
def listed (origin : Bytes) : Bool := !origin.isEmpty && origin != lit "*"

/-- One turn: a new origin is added at the end, and a wildcard is an issue. -/
theorem addOrigin_eq (seen : List Bytes) (issues : List ConfigurationIssue) (segment : Bytes) :
    addOrigin (seen.eraseDups, issues) segment =
      ((seen ++ [trimmed segment].filter listed).eraseDups,
        issues ++ List.replicate ([trimmed segment].count (lit "*")) wildcardIssue) := by
  simp only [addOrigin, trim_eq_trimmed]
  generalize trimmed segment = origin
  by_cases hwild : origin = lit "*"
  · simp [hwild, listed]
  by_cases hempty : origin = []
  · subst hempty
    simp [hwild, listed]
  by_cases hseen : origin ∈ seen
  · simp [hwild, hseen, listed, List.eraseDups_append, List.removeAll]
  · simp [hwild, hempty, hseen, listed, List.eraseDups_append, List.removeAll, List.eraseDups_cons]

/-- All turns: the distinct origins in the order of their first occurrence. -/
theorem foldl_addOrigin (segments seen : List Bytes) (issues : List ConfigurationIssue) :
    segments.foldl addOrigin (seen.eraseDups, issues) =
      ((seen ++ (segments.map trimmed).filter listed).eraseDups,
        issues ++ List.replicate ((segments.map trimmed).count (lit "*")) wildcardIssue) := by
  induction segments generalizing seen issues with
  | nil => simp
  | cons segment segments ih =>
      have hhead : trimmed segment :: segments.map trimmed =
          [trimmed segment] ++ segments.map trimmed := rfl
      rw [List.foldl_cons, addOrigin_eq, ih, List.map_cons, hhead, List.filter_append,
        List.count_append, List.append_assoc, List.append_assoc, List.replicate_add]

/-- What the loop makes of the whole setting. -/
theorem allowedOrigins_eq (source : ConfigurationSource) :
    allowedOrigins source =
      (((configuredOrigins source).filter listed).eraseDups,
        List.replicate ((configuredOrigins source).count (lit "*")) wildcardIssue) := by
  cases hcors : source (lit "WAREHOUSE_CORS_ALLOWED_ORIGINS") with
  | none => simp [allowedOrigins, configuredOrigins, hcors]
  | some cors =>
      have hfold := foldl_addOrigin (cors.splitOn 44) [] []
      simp only [List.eraseDups_nil, List.nil_append] at hfold
      simp only [allowedOrigins, configuredOrigins, hcors]
      rw [originsFrom_eq (Nat.zero_le _) (by omega), List.drop_zero, hfold]

/-! ## Accepted configurations -/

/-- A configuration is accepted without issues, and has the origins that the loop found. -/
theorem allowedOrigins_of_accepted {source : ConfigurationSource}
    {configuration : ServerConfiguration}
    (h : (loadServerConfiguration source).configuration = some configuration) :
    configuration.http.allowedOrigins = (allowedOrigins source).1 ∧
      (allowedOrigins source).2 = [] := by
  simp only [loadServerConfiguration] at h
  split at h
  · rename_i hissues
    simp only [List.isEmpty_iff, List.append_eq_nil_iff] at hissues
    rw [← Option.some.inj h]
    exact ⟨rfl, hissues.1.1.2⟩
  · cases h

/-- In an accepted configuration no segment is the wildcard. -/
theorem wildcard_not_configured {source : ConfigurationSource}
    {configuration : ServerConfiguration}
    (h : (loadServerConfiguration source).configuration = some configuration) :
    lit "*" ∉ configuredOrigins source := by
  have hissues := (allowedOrigins_of_accepted h).2
  rw [allowedOrigins_eq] at hissues
  exact List.count_eq_zero.mp ((List.replicate_eq_nil_iff _).mp hissues)

/-- The list of an accepted configuration: the distinct segments that are not empty. -/
theorem allowedOrigins_accepted {source : ConfigurationSource}
    {configuration : ServerConfiguration}
    (h : (loadServerConfiguration source).configuration = some configuration) :
    configuration.http.allowedOrigins =
      ((configuredOrigins source).filter fun origin => !origin.isEmpty).eraseDups := by
  have hkept : (configuredOrigins source).filter listed =
      (configuredOrigins source).filter fun origin => !origin.isEmpty := by
    refine List.filter_congr fun origin hmem => ?_
    have hwild : origin ≠ lit "*" := fun heq => wildcard_not_configured h (heq ▸ hmem)
    simp [listed, hwild]
  rw [(allowedOrigins_of_accepted h).1, allowedOrigins_eq, hkept]

end Warehouse.Bootstrap

namespace Warehouse.Api

open Bootstrap

/-! ## The HTTP layer -/

/-- What `applyCors` reads of an `httplib::Request`: `get_header_value`, empty without the header. -/
structure HttpRequest where
  getHeaderValue : Bytes → Bytes

/-- An `httplib::Response`, as the calls of `set_header` on it, in order. -/
structure HttpResponse where
  headers : List (Bytes × Bytes) := []

/-- `httplib::Response::set_header` -/
def HttpResponse.setHeader (response : HttpResponse) (name value : Bytes) : HttpResponse :=
  { response with headers := response.headers ++ [(name, value)] }

/-- What `applyCors` and the composition root use of `HttpServerOptions`. -/
structure HttpServerOptions where
  allowedOrigins : List Bytes := []
  workerThreads : ℕ := 1

/-- The options that `ProductionPlatform::assembleApi` gives to the server. -/
def assembleOptions (http : HttpServerConfiguration) : HttpServerOptions :=
  { allowedOrigins := http.allowedOrigins
    workerThreads := http.workerThreads }

/-- `applyCors` -/
def applyCors (options : HttpServerOptions) (request : HttpRequest) (response : HttpResponse) :
    HttpResponse :=
  let origin := request.getHeaderValue (lit "Origin")
  if origin.isEmpty || !options.allowedOrigins.contains origin then response
  else
    (((response.setHeader (lit "Access-Control-Allow-Origin") origin).setHeader
      (lit "Vary") (lit "Origin")).setHeader
      (lit "Access-Control-Allow-Headers") (lit "Content-Type, Authorization")).setHeader
      (lit "Access-Control-Allow-Methods") (lit "GET, POST, OPTIONS")

/-- The headers that `applyCors` adds. -/
theorem applyCors_headers (options : HttpServerOptions) (request : HttpRequest)
    (response : HttpResponse) :
    (applyCors options request response).headers = response.headers ++
      if request.getHeaderValue (lit "Origin") ≠ [] ∧
          request.getHeaderValue (lit "Origin") ∈ options.allowedOrigins then
        [(lit "Access-Control-Allow-Origin", request.getHeaderValue (lit "Origin")),
          (lit "Vary", lit "Origin"),
          (lit "Access-Control-Allow-Headers", lit "Content-Type, Authorization"),
          (lit "Access-Control-Allow-Methods", lit "GET, POST, OPTIONS")]
      else [] := by
  simp only [applyCors]
  generalize request.getHeaderValue (lit "Origin") = origin
  by_cases hempty : origin = []
  · simp [hempty]
  by_cases hmem : origin ∈ options.allowedOrigins
  · simp [hempty, hmem, HttpResponse.setHeader]
  · simp [hempty, hmem]

/-! ## From the setting to the response -/

/-- The allow list, end to end.  An accepted configuration lists the distinct segments of the
setting that are not empty, none of them the wildcard, and the server allows exactly them: it adds
one `Access-Control-Allow-Origin`, with the origin of the request, or none. -/
theorem applyCors_endToEnd (source : ConfigurationSource) :
    (lit "*" ∈ configuredOrigins source → (loadServerConfiguration source).ok = false) ∧
      ∀ configuration, (loadServerConfiguration source).configuration = some configuration →
        configuration.http.allowedOrigins =
            ((configuredOrigins source).filter fun origin => !origin.isEmpty).eraseDups ∧
          lit "*" ∉ configuration.http.allowedOrigins ∧
          ∀ (request : HttpRequest) (response : HttpResponse), ∃ added,
            (applyCors (assembleOptions configuration.http) request response).headers =
                response.headers ++ added ∧
              (added.filter fun header => header.1 = lit "Access-Control-Allow-Origin") =
                if request.getHeaderValue (lit "Origin") ≠ [] ∧
                    request.getHeaderValue (lit "Origin") ∈ configuredOrigins source then
                  [(lit "Access-Control-Allow-Origin", request.getHeaderValue (lit "Origin"))]
                else [] := by
  constructor
  · intro hwild
    cases hloaded : (loadServerConfiguration source).configuration with
    | none => simp [ConfigurationResult.ok, hloaded]
    | some configuration => exact absurd hwild (wildcard_not_configured hloaded)
  · intro configuration hloaded
    have hlist := allowedOrigins_accepted hloaded
    refine ⟨hlist, ?_, fun request response => ?_⟩
    · rw [hlist, List.mem_eraseDups]
      exact fun hmem => wildcard_not_configured hloaded (List.mem_filter.mp hmem).1
    · refine ⟨_, applyCors_headers _ request response, ?_⟩
      simp only [assembleOptions, hlist, List.mem_eraseDups, List.mem_filter]
      generalize request.getHeaderValue (lit "Origin") = origin
      by_cases hempty : origin = []
      · simp [hempty]
      by_cases hmem : origin ∈ configuredOrigins source
      · have hothers : lit "Vary" ≠ lit "Access-Control-Allow-Origin" ∧
            lit "Access-Control-Allow-Headers" ≠ lit "Access-Control-Allow-Origin" ∧
            lit "Access-Control-Allow-Methods" ≠ lit "Access-Control-Allow-Origin" := by decide
        simp [hempty, hmem, hothers]
      · simp [hempty, hmem]

/-- A complete configuration with two origins, the second of them twice. -/
private def twoOrigins : ConfigurationSource := fun key =>
  if key = lit "WAREHOUSE_DB_PORT" then some (lit "3306")
  else if key = lit "WAREHOUSE_CORS_ALLOWED_ORIGINS" then some (lit "https://a, https://b,,https://b ")
  else if key = lit "WAREHOUSE_DB_HOST" || key = lit "WAREHOUSE_DB_NAME" ||
      key = lit "WAREHOUSE_DB_USER" || key = lit "WAREHOUSE_DB_PASSWORD" then
    some (lit "warehouse")
  else none

theorem applyCors_endToEnd_two :
    ∃ configuration, (loadServerConfiguration twoOrigins).configuration = some configuration ∧
      configuration.http.allowedOrigins = [lit "https://a", lit "https://b"] := by
  have hok : (loadServerConfiguration twoOrigins).configuration.isSome = true := by decide
  obtain ⟨configuration, hloaded⟩ := Option.isSome_iff_exists.mp hok
  refine ⟨configuration, hloaded, ?_⟩
  rw [((applyCors_endToEnd twoOrigins).2 configuration hloaded).1]
  decide

end Warehouse.Api
