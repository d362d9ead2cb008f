/-
# Warehouse.Bootstrap.ConfigurationIssues — every issue is reported, each by its own setting

A load is a sequence of checks.  A `SettingCheck` carries the proofs that its issues are about its key and
that it reads nothing of the source but what belongs to that key, so what is reported for one key
does not depend on any other, and no issue keeps another from being reported.
-/
import Warehouse.Bootstrap.Configuration

namespace Warehouse.Bootstrap

/-! ## Checks -/

/-- The key of issues about the two administrator settings. -/
def administratorKey : Bytes := lit "WAREHOUSE_ADMIN_USERNAME/WAREHOUSE_ADMIN_PASSWORD"

/-- Two sources agree on a key; for the two administrator settings, on which of them are there. -/
def Agree (key : Bytes) (source source' : ConfigurationSource) : Prop :=
  if key = administratorKey then
    (source (lit "WAREHOUSE_ADMIN_USERNAME")).isSome =
        (source' (lit "WAREHOUSE_ADMIN_USERNAME")).isSome ∧
      (source (lit "WAREHOUSE_ADMIN_PASSWORD")).isSome =
        (source' (lit "WAREHOUSE_ADMIN_PASSWORD")).isSome
  else source key = source' key

/-- A part of a load that may add issues. -/
structure SettingCheck where
  key : Bytes
  issues : ConfigurationSource → List ConfigurationIssue
  about : ∀ source, ∀ issue ∈ issues source, issue.key = key
  reads : ∀ source source', Agree key source source' → issues source = issues source'

section Checks

variable {source source' : ConfigurationSource} {key value : Bytes} {maximum target : ℕ}

theorem Agree.read (h : Agree key source source') (hkey : key ≠ administratorKey) :
    source key = source' key := by
  unfold Agree at h
  rwa [if_neg hkey] at h

theorem required_about : ∀ issue ∈ (required source key).2, issue.key = key := by
  unfold required
  cases source key with
  | none => simp
  | some value => cases value <;> simp

theorem parsePositive_about : ∀ issue ∈ (parsePositive key value maximum).2, issue.key = key := by
  intro issue hissue
  unfold parsePositive at hissue
  split at hissue
  · simp at hissue
    rw [hissue]
  · split at hissue
    · simp at hissue
      rw [hissue]
    · split at hissue
      · simp at hissue
        rw [hissue]
      · simp at hissue

theorem optionalPositive_about :
    ∀ issue ∈ (optionalPositive source key maximum target).2, issue.key = key := by
  unfold optionalPositive
  cases source key with
  | none => simp
  | some value =>
      cases value with
      | nil => simp
      | cons c rest => exact parsePositive_about

/-- `required` -/
def requiredCheck (key : Bytes) (hkey : key ≠ administratorKey) : SettingCheck where
  key := key
  issues source := (required source key).2
  about _ := required_about
  reads source source' h := by
    unfold required
    rw [h.read hkey]

/-- `optionalPositive` -/
def positiveCheck (key : Bytes) (maximum target : ℕ) (hkey : key ≠ administratorKey) : SettingCheck where
  key := key
  issues source := (optionalPositive source key maximum target).2
  about _ := optionalPositive_about
  reads source source' h := by
    unfold optionalPositive
    rw [h.read hkey]

/-- The port of the database, where there is a text for it. -/
def databasePortCheck : SettingCheck where
  key := lit "WAREHOUSE_DB_PORT"
  issues source := (databasePort (required source (lit "WAREHOUSE_DB_PORT")).1).2
  about source := by
    cases (required source (lit "WAREHOUSE_DB_PORT")).1 with
    | none => simp [databasePort]
    | some value => exact parsePositive_about
  reads source source' h := by
    unfold required
    rw [h.read (by decide)]

/-- The address to listen on. -/
def bindAddressCheck : SettingCheck where
  key := lit "WAREHOUSE_HTTP_BIND_ADDRESS"
  issues source := (bindAddress source (lit "127.0.0.1")).2
  about source := by
    unfold bindAddress
    cases source (lit "WAREHOUSE_HTTP_BIND_ADDRESS") with
    | none => simp
    | some value => cases value <;> simp
  reads source source' h := by
    unfold bindAddress
    rw [h.read (by decide)]

theorem originsFrom_about {cors : Bytes} {turns start : ℕ}
    {state : List Bytes × List ConfigurationIssue}
    (h : ∀ issue ∈ state.2, issue.key = lit "WAREHOUSE_CORS_ALLOWED_ORIGINS") :
    ∀ issue ∈ (originsFrom cors turns start state).2,
      issue.key = lit "WAREHOUSE_CORS_ALLOWED_ORIGINS" := by
  have hturn : ∀ (state : List Bytes × List ConfigurationIssue) segment,
      (∀ issue ∈ state.2, issue.key = lit "WAREHOUSE_CORS_ALLOWED_ORIGINS") →
      ∀ issue ∈ (addOrigin state segment).2,
        issue.key = lit "WAREHOUSE_CORS_ALLOWED_ORIGINS" := by
    intro state segment hstate issue hissue
    unfold addOrigin at hissue
    dsimp only at hissue
    split at hissue
    · rcases List.mem_append.mp hissue with hold | hnew
      · exact hstate issue hold
      · rw [List.mem_singleton.mp hnew]
        rfl
    · split at hissue
      · exact hstate issue hissue
      · exact hstate issue hissue
  induction turns generalizing start state with
  | zero => exact h
  | succ turns ih =>
      unfold originsFrom
      split
      · dsimp only
        split
        · exact hturn _ _ h
        · exact ih (hturn _ _ h)
      · exact h

/-- The origins. -/
def originsCheck : SettingCheck where
  key := lit "WAREHOUSE_CORS_ALLOWED_ORIGINS"
  issues source := (allowedOrigins source).2
  about source := by
    unfold allowedOrigins
    cases source (lit "WAREHOUSE_CORS_ALLOWED_ORIGINS") with
    | none => simp
    | some cors => exact originsFrom_about (by simp)
  reads source source' h := by
    unfold allowedOrigins
    rw [h.read (by decide)]

/-- The pair of administrator settings. -/
def administratorCheck : SettingCheck where
  key := administratorKey
  issues source := administratorPair (source (lit "WAREHOUSE_ADMIN_USERNAME"))
    (source (lit "WAREHOUSE_ADMIN_PASSWORD"))
  about source issue hissue := by
    unfold administratorPair at hissue
    split at hissue
    · rw [List.mem_singleton.mp hissue]
      rfl
    · cases hissue
  reads source source' h := by
    unfold Agree at h
    rw [if_pos rfl] at h
    unfold administratorPair
    rw [h.1, h.2]

/-- The flag for the migration of passwords. -/
def migrationFlagCheck : SettingCheck where
  key := lit "WAREHOUSE_MIGRATE_PASSWORDS"
  issues source := (migrationFlag source).2
  about source issue hissue := by
    unfold migrationFlag at hissue
    split at hissue
    · cases hissue
    · dsimp only at hissue
      split at hissue
      · cases hissue
      · split at hissue
        · cases hissue
        · rw [List.mem_singleton.mp hissue]
  reads source source' h := by
    unfold migrationFlag
    rw [h.read (by decide)]

end Checks

/-- The checks of a load, in order. -/
def settingChecks : List SettingCheck :=
  [requiredCheck (lit "WAREHOUSE_DB_HOST") (by decide),
    requiredCheck (lit "WAREHOUSE_DB_PORT") (by decide),
    requiredCheck (lit "WAREHOUSE_DB_NAME") (by decide),
    requiredCheck (lit "WAREHOUSE_DB_USER") (by decide),
    requiredCheck (lit "WAREHOUSE_DB_PASSWORD") (by decide),
    databasePortCheck,
    bindAddressCheck,
    positiveCheck (lit "WAREHOUSE_HTTP_PORT") uint16Max 8081 (by decide),
    positiveCheck (lit "WAREHOUSE_HTTP_WORKER_THREADS") sizeMax 1 (by decide),
    positiveCheck (lit "WAREHOUSE_DB_POOL_SIZE") sizeMax 1 (by decide),
    originsCheck,
    administratorCheck,
    migrationFlagCheck]

/-- A load reports the issues of all checks. -/
theorem issues_eq (source : ConfigurationSource) :
    (loadServerConfiguration source).issues = settingChecks.flatMap fun check => check.issues source := by
  simp only [loadServerConfiguration, settingChecks, List.flatMap_cons, List.flatMap_nil, List.append_nil,
    List.append_assoc]
  rfl

/-- The issues that are reported for a key. -/
def issuesFor (key : Bytes) (source : ConfigurationSource) : List ConfigurationIssue :=
  (loadServerConfiguration source).issues.filter fun issue => issue.key = key

section Loads

variable {source source' : ConfigurationSource} {key : Bytes}

theorem SettingCheck.filter_issues (check : SettingCheck) :
    (check.issues source).filter (fun issue => issue.key = key) =
      if check.key = key then check.issues source else [] := by
  split
  · rename_i hkey
    refine List.filter_eq_self.mpr fun issue hissue => ?_
    simpa [hkey] using check.about source issue hissue
  · rename_i hkey
    refine List.filter_eq_nil_iff.mpr fun issue hissue => ?_
    simpa [check.about source issue hissue] using hkey

/-- For a key, the checks of that key report. -/
theorem issuesFor_eq (key : Bytes) (source : ConfigurationSource) :
    issuesFor key source =
      (settingChecks.filter fun check => check.key = key).flatMap fun check => check.issues source := by
  have hchecks : ∀ checks : List SettingCheck,
      (checks.flatMap fun check => check.issues source).filter (fun issue => issue.key = key) =
        (checks.filter fun check => check.key = key).flatMap fun check => check.issues source := by
    intro checks
    induction checks with
    | nil => rfl
    | cons check checks ih =>
        rw [List.flatMap_cons, List.filter_append, ih, check.filter_issues]
        by_cases hkey : check.key = key <;> simp [hkey]
  unfold issuesFor
  rw [issues_eq]
  exact hchecks settingChecks

/-- Sources that agree on a key are reported the same issues for it. -/
theorem issuesFor_eq_of_agree (h : Agree key source source') :
    issuesFor key source = issuesFor key source' := by
  rw [issuesFor_eq, issuesFor_eq]
  apply List.flatMap_congr
  intro check hcheck
  have hkey : check.key = key := by simpa using (List.mem_filter.mp hcheck).2
  apply check.reads
  rwa [hkey]

/-- Sources that differ in the values of passwords only, which are not empty. -/
def DifferInPasswords (source source' : ConfigurationSource) : Prop :=
  ∀ key, source key = source' key ∨
    ((key = lit "WAREHOUSE_DB_PASSWORD" ∨ key = lit "WAREHOUSE_ADMIN_PASSWORD") ∧
      ∃ value value', source key = some value ∧ source' key = some value' ∧ value ≠ [] ∧ value' ≠ [])

theorem DifferInPasswords.agree (h : DifferInPasswords source source')
    (hdatabase : key ≠ lit "WAREHOUSE_DB_PASSWORD") (hadmin : key ≠ lit "WAREHOUSE_ADMIN_PASSWORD") :
    Agree key source source' := by
  have hpresent : ∀ key, (source key).isSome = (source' key).isSome := by
    intro key
    rcases h key with hsame | ⟨-, value, value', hvalue, hvalue', -⟩
    · rw [hsame]
    · rw [hvalue, hvalue']
      rfl
  unfold Agree
  split
  · exact ⟨hpresent _, hpresent _⟩
  · rcases h key with hsame | ⟨hpassword | hpassword, -⟩
    · exact hsame
    · exact absurd hpassword hdatabase
    · exact absurd hpassword hadmin

/-- Of a password that must be there, only an empty value is reported. -/
theorem DifferInPasswords.required (h : DifferInPasswords source source') :
    (required source (lit "WAREHOUSE_DB_PASSWORD")).2 =
      (required source' (lit "WAREHOUSE_DB_PASSWORD")).2 := by
  unfold Bootstrap.required
  rcases h (lit "WAREHOUSE_DB_PASSWORD") with hsame | ⟨-, value, value', hvalue, hvalue', hne, hne'⟩
  · rw [hsame]
  · simp [hvalue, hvalue', hne, hne']

/-- What passwords are makes no difference to the issues. -/
theorem DifferInPasswords.issues (h : DifferInPasswords source source') :
    (loadServerConfiguration source).issues = (loadServerConfiguration source').issues := by
  have hkeys : ∀ check ∈ settingChecks, check.key ≠ lit "WAREHOUSE_ADMIN_PASSWORD" := by decide
  rw [issues_eq, issues_eq]
  apply List.flatMap_congr
  intro check hcheck
  by_cases hdatabase : check.key = lit "WAREHOUSE_DB_PASSWORD"
  · have honly : settingChecks.filter (fun check => check.key = lit "WAREHOUSE_DB_PASSWORD") =
        [requiredCheck (lit "WAREHOUSE_DB_PASSWORD") (by decide)] := rfl
    have hmem : check ∈ settingChecks.filter fun check => check.key = lit "WAREHOUSE_DB_PASSWORD" :=
      List.mem_filter.mpr ⟨hcheck, decide_eq_true hdatabase⟩
    rw [honly, List.mem_singleton] at hmem
    rw [hmem]
    exact h.required
  · -- no check has the key of the other password
    exact check.reads _ _ (h.agree hdatabase (hkeys check hcheck))

end Loads

/-! ## Numbers -/

/-- The settings that are numbers. -/
inductive IntegerSetting
  | databasePort | httpPort | workerThreads | poolSize
  deriving DecidableEq, Repr

/-- The key of a setting. -/
def IntegerSetting.key : IntegerSetting → Bytes
  | .databasePort => lit "WAREHOUSE_DB_PORT"
  | .httpPort => lit "WAREHOUSE_HTTP_PORT"
  | .workerThreads => lit "WAREHOUSE_HTTP_WORKER_THREADS"
  | .poolSize => lit "WAREHOUSE_DB_POOL_SIZE"

/-- The largest value of the type of a setting. -/
def IntegerSetting.maximum : IntegerSetting → ℕ
  | .databasePort => uint16Max
  | .httpPort => uint16Max
  | .workerThreads => sizeMax
  | .poolSize => sizeMax

/-- The field that a setting is loaded into. -/
def IntegerSetting.value (configuration : ServerConfiguration) : IntegerSetting → ℕ
  | .databasePort => configuration.mysql.port
  | .httpPort => configuration.http.port
  | .workerThreads => configuration.http.workerThreads
  | .poolSize => configuration.mysql.poolSize

/-- What the field holds if the source has no text for it. -/
def IntegerSetting.initial : IntegerSetting → ℕ
  | .databasePort => 0
  | .httpPort => 8081
  | .workerThreads => 1
  | .poolSize => 1

/-- What the load makes of a setting: the field, and the issues. -/
def IntegerSetting.loaded (setting : IntegerSetting) (source : ConfigurationSource) :
    ℕ × List ConfigurationIssue :=
  match setting with
  | .databasePort =>
      let (port, issues) := required source (lit "WAREHOUSE_DB_PORT")
      let (value, valueIssues) := Bootstrap.databasePort port
      (value, issues ++ valueIssues)
  | .httpPort => optionalPositive source (lit "WAREHOUSE_HTTP_PORT") uint16Max 8081
  | .workerThreads => optionalPositive source (lit "WAREHOUSE_HTTP_WORKER_THREADS") sizeMax 1
  | .poolSize => optionalPositive source (lit "WAREHOUSE_DB_POOL_SIZE") sizeMax 1

section Numbers

variable {source : ConfigurationSource} {setting : IntegerSetting} {text : Bytes}

/-- A load returns a configuration if it reports nothing. -/
theorem configuration_eq (source : ConfigurationSource) : ∃ configuration : ServerConfiguration,
    (loadServerConfiguration source).configuration =
        (if (loadServerConfiguration source).issues.isEmpty then some configuration else none) ∧
      ∀ setting : IntegerSetting, setting.value configuration = (setting.loaded source).1 := by
  refine ⟨_, rfl, ?_⟩
  intro setting
  cases setting <;> rfl

/-- A load that reports nothing returns a configuration, and no other load does. -/
theorem configuration_iff (source : ConfigurationSource) :
    (loadServerConfiguration source).configuration.isSome ↔
      (loadServerConfiguration source).issues = [] := by
  obtain ⟨configuration, hresult, -⟩ := configuration_eq source
  rw [hresult]
  split
  · rename_i hempty
    simpa using hempty
  · rename_i hissues
    simpa using hissues

/-- The fields of a configuration that was accepted. -/
theorem value_of_accepted {configuration : ServerConfiguration}
    (h : (loadServerConfiguration source).configuration = some configuration) :
    setting.value configuration = (setting.loaded source).1 := by
  obtain ⟨configuration', hresult, hvalues⟩ := configuration_eq source
  rw [h] at hresult
  split at hresult
  · rw [Option.some.inj hresult]
    exact hvalues setting
  · cases hresult

/-- For the key of a setting, its own issues are reported. -/
theorem issuesFor_setting : issuesFor setting.key source = (setting.loaded source).2 := by
  rw [issuesFor_eq]
  cases setting with
  | databasePort =>
      -- two checks have this key: that the port is there, and that it is a number
      have honly : settingChecks.filter (fun check => check.key = lit "WAREHOUSE_DB_PORT") =
          [requiredCheck (lit "WAREHOUSE_DB_PORT") (by decide), databasePortCheck] := rfl
      show List.flatMap _ (settingChecks.filter fun check => check.key = lit "WAREHOUSE_DB_PORT") = _
      rw [honly]
      show _ ++ (_ ++ []) = _
      rw [List.append_nil]
      rfl
  | httpPort => exact List.append_nil _
  | workerThreads => exact List.append_nil _
  | poolSize => exact List.append_nil _

/-- A setting that is not required is loaded as a number with a default. -/
theorem loaded_of_optional (hsetting : setting ≠ .databasePort) :
    setting.loaded source =
      optionalPositive source setting.key setting.maximum setting.initial := by
  cases setting with
  | databasePort => exact absurd rfl hsetting
  | httpPort => rfl
  | workerThreads => rfl
  | poolSize => rfl

/-- What is loaded of a text. -/
theorem loaded_of_text (hread : source setting.key = some text) (htext : text ≠ []) :
    setting.loaded source =
      ((parsePositive setting.key text setting.maximum).1.getD setting.initial,
        (parsePositive setting.key text setting.maximum).2) := by
  have hempty : text.isEmpty = false := by simpa using htext
  by_cases hsetting : setting = .databasePort
  · -- here `required` has looked at the text before it is parsed
    subst hsetting
    have hread : source (lit "WAREHOUSE_DB_PORT") = some text := hread
    simp [IntegerSetting.loaded, required, Bootstrap.databasePort, hread, hempty]
    exact ⟨rfl, rfl⟩
  · rw [loaded_of_optional hsetting]
    simp [optionalPositive, hread, hempty]

/-- What `parsePositive` makes of a text that is not empty. -/
theorem parsePositive_eq {key : Bytes} {maximum : ℕ} (htext : text ≠ []) :
    parsePositive key text maximum =
      if text.all isdigit = true ∧ digitsValue text < 2 ^ 64 then
        if 1 ≤ digitsValue text ∧ digitsValue text ≤ maximum then (some (digitsValue text), [])
        else (none, [⟨key, .outOfRange, lit "configuration integer is outside the allowed range"⟩])
      else (none,
        [⟨key, .invalidInteger, lit "configuration must be an unsigned decimal integer"⟩]) := by
  have hempty : text.isEmpty = false := by simpa using htext
  by_cases hsign : text.head? = some 45 ∨ text.head? = some 43
  · -- a sign is not a digit
    have hdigits : text.all isdigit = false := by
      cases text with
      | nil => exact absurd rfl htext
      | cons c rest =>
          rcases hsign with hc | hc
          · obtain rfl := Option.some.inj hc
            rfl
          · obtain rfl := Option.some.inj hc
            rfl
    have hfirst : (text.isEmpty || text.head? = some 45 || text.head? = some 43) = true := by
      simpa [hempty] using hsign
    rw [parsePositive, if_pos hfirst, if_neg (by simp [hdigits])]
  · have hfirst : ¬ (text.isEmpty || text.head? = some 45 || text.head? = some 43) = true := by
      simpa [hempty] using hsign
    rw [parsePositive, if_neg hfirst, parseUnsigned_eq htext]
    by_cases hread : text.all isdigit = true ∧ digitsValue text < 2 ^ 64
    · rw [if_pos hread, if_pos hread]
      by_cases hrange : 1 ≤ digitsValue text ∧ digitsValue text ≤ maximum
      · rw [if_pos hrange]
        have hvalid : ¬ (digitsValue text = 0 || digitsValue text > maximum) = true := by
          simp
          omega
        exact if_neg hvalid
      · rw [if_neg hrange]
        have hinvalid : (digitsValue text = 0 || digitsValue text > maximum) = true := by
          simp
          omega
        exact if_pos hinvalid
    · rw [if_neg hread, if_neg hread]

theorem maximum_lt (setting : IntegerSetting) : setting.maximum < 2 ^ 64 := by
  cases setting <;> decide

/-- Without a text a setting that is not required keeps its first value. -/
theorem loaded_of_none (hread : source setting.key = none) :
    (setting.loaded source).1 = setting.initial := by
  by_cases hsetting : setting = .databasePort
  · subst hsetting
    have hread : source (lit "WAREHOUSE_DB_PORT") = none := hread
    simp [IntegerSetting.loaded, required, Bootstrap.databasePort, hread]
    rfl
  · rw [loaded_of_optional hsetting]
    simp [optionalPositive, hread]

/-- An empty text is reported. -/
theorem issuesFor_empty (hread : source setting.key = some []) :
    issuesFor setting.key source ≠ [] := by
  rw [issuesFor_setting]
  by_cases hsetting : setting = .databasePort
  · subst hsetting
    have hread : source (lit "WAREHOUSE_DB_PORT") = some [] := hread
    simp [IntegerSetting.loaded, required, hread]
  · rw [loaded_of_optional hsetting]
    simp [optionalPositive, hread]

/-- A text of which nothing is reported is a numeral in range, and its value is loaded. -/
theorem loaded_of_unreported (hread : source setting.key = some text)
    (hissues : issuesFor setting.key source = []) :
    text.all isdigit = true ∧ (setting.loaded source).1 = digitsValue text ∧
      1 ≤ digitsValue text ∧ digitsValue text ≤ setting.maximum := by
  have htext : text ≠ [] := by
    rintro rfl
    exact issuesFor_empty hread hissues
  rw [issuesFor_setting, loaded_of_text hread htext, parsePositive_eq htext] at hissues
  rw [loaded_of_text hread htext, parsePositive_eq htext]
  split at hissues
  · rename_i hdigits
    split at hissues
    · rename_i hrange
      rw [if_pos hdigits, if_pos hrange]
      exact ⟨hdigits.1, rfl, hrange⟩
    · cases hissues
  · cases hissues

/-- The database port has to be there. -/
theorem issuesFor_missing (hread : source (lit "WAREHOUSE_DB_PORT") = none) :
    issuesFor (lit "WAREHOUSE_DB_PORT") source ≠ [] := by
  have hissues : issuesFor (IntegerSetting.key .databasePort) source = _ := issuesFor_setting
  show issuesFor (IntegerSetting.key .databasePort) source ≠ []
  rw [hissues]
  simp [IntegerSetting.loaded, required, hread]

theorem issuesFor_nil (h : (loadServerConfiguration source).issues = []) (key : Bytes) :
    issuesFor key source = [] := by
  unfold issuesFor
  rw [h]
  rfl

theorem issues_of_accepted {configuration : ServerConfiguration}
    (h : (loadServerConfiguration source).configuration = some configuration) :
    (loadServerConfiguration source).issues = [] :=
  (configuration_iff source).mp (by rw [h]; rfl)

end Numbers

/-- All issues are reported, each by what is read for its own key.  A configuration is returned if
and only if nothing is reported.  What is reported for a key depends on that key alone, or on the
presence of the two administrator settings, and nothing depends on what the passwords are.  The
numbers of a configuration that is returned are those of the texts, or the defaults, and in range. -/
theorem configurationIssues_independent :
    (∀ source, (loadServerConfiguration source).configuration.isSome ↔
      (loadServerConfiguration source).issues = []) ∧
    (∀ key source source', Agree key source source' →
      issuesFor key source = issuesFor key source') ∧
    (∀ source source', DifferInPasswords source source' →
      (loadServerConfiguration source).issues = (loadServerConfiguration source').issues) ∧
    ∀ source configuration, (loadServerConfiguration source).configuration = some configuration →
      ∀ setting : IntegerSetting,
        (1 ≤ setting.value configuration ∧ setting.value configuration ≤ setting.maximum) ∧
        (∀ text, source setting.key = some text →
          text.all isdigit = true ∧ setting.value configuration = digitsValue text) ∧
        (source setting.key = none →
          setting ≠ .databasePort ∧ setting.value configuration = setting.initial) := by
  refine ⟨configuration_iff, fun _ _ _ => issuesFor_eq_of_agree, fun _ _ => DifferInPasswords.issues, ?_⟩
  intro source configuration h setting
  have hissues := issuesFor_nil (issues_of_accepted h)
  rw [value_of_accepted h]
  cases hread : source setting.key with
  | some text =>
      obtain ⟨hdigits, hvalue, hrange⟩ := loaded_of_unreported hread (hissues _)
      rw [hvalue]
      refine ⟨hrange, ?_, nofun⟩
      intro text' htext
      obtain rfl := Option.some.inj htext
      exact ⟨hdigits, rfl⟩
  | none =>
      have hsetting : setting ≠ .databasePort := by
        rintro rfl
        exact issuesFor_missing hread (hissues _)
      rw [loaded_of_none hread]
      refine ⟨?_, nofun, fun _ => ⟨hsetting, rfl⟩⟩
      cases setting with
      | databasePort => exact absurd rfl hsetting
      | httpPort => decide
      | workerThreads => decide
      | poolSize => decide

/-- The five settings that have to be there. -/
def minimalSource : ConfigurationSource := fun key =>
  if key = lit "WAREHOUSE_DB_HOST" then some (lit "127.0.0.1")
  else if key = lit "WAREHOUSE_DB_PORT" then some (lit "3306")
  else if key = lit "WAREHOUSE_DB_NAME" then some (lit "warehouse")
  else if key = lit "WAREHOUSE_DB_USER" then some (lit "warehouse_app")
  else if key = lit "WAREHOUSE_DB_PASSWORD" then some (lit "sensitive-value")
  else none

example : (loadServerConfiguration minimalSource).issues = [] ∧
    ((loadServerConfiguration minimalSource).configuration.map fun configuration =>
      (configuration.http.port, configuration.mysql.port, configuration.mysql.poolSize)) =
        some (8081, 3306, 1) := by
  decide +kernel

-- three settings are at fault, and one that has to be there is missing
example : ((loadServerConfiguration fun key =>
      if key = lit "WAREHOUSE_DB_PORT" then some (lit "65536")
      else if key = lit "WAREHOUSE_DB_USER" then none
      else if key = lit "WAREHOUSE_HTTP_PORT" then some (lit "80a")
      else if key = lit "WAREHOUSE_ADMIN_USERNAME" then some (lit "admin")
      else minimalSource key).issues.map fun issue => (issue.key, issue.code)) =
    [(lit "WAREHOUSE_DB_USER", .missing), (lit "WAREHOUSE_DB_PORT", .outOfRange),
      (lit "WAREHOUSE_HTTP_PORT", .invalidInteger), (administratorKey, .inconsistent)] := by
  decide +kernel

/-! ## Numbers by their value -/

/-- With this text the setting is accepted, with that value: nothing is reported for its key, and
the field of every configuration that is returned has the value. -/
def IntegerSetting.Accepts (setting : IntegerSetting) (text : Bytes) (n : ℕ) : Prop :=
  ∀ source, source setting.key = some text → issuesFor setting.key source = [] ∧
    ∀ configuration, (loadServerConfiguration source).configuration = some configuration →
      setting.value configuration = n

/-- With this text an issue of that code is reported for the setting. -/
def IntegerSetting.Reports (setting : IntegerSetting) (text : Bytes)
    (code : ConfigurationIssueCode) : Prop :=
  ∀ source, source setting.key = some text → ∃ issue ∈ issuesFor setting.key source, issue.code = code

/-- A setting is classified by the value of its text. -/
structure IntegerSetting.ByValue (setting : IntegerSetting) (text : Bytes) : Prop where
  accepted : ∀ n, setting.Accepts text n ↔
    text.all isdigit = true ∧ digitsValue text = n ∧ 1 ≤ n ∧ n ≤ setting.maximum
  invalid : setting.Reports text .invalidInteger ↔ ∃ c ∈ text, isdigit c = false
  range : setting.Reports text .outOfRange ↔
    text.all isdigit = true ∧ (digitsValue text = 0 ∨ setting.maximum < digitsValue text)

section ByValue

variable {setting : IntegerSetting} {text : Bytes} {code : ConfigurationIssueCode} {n : ℕ}

/-- A source that is accepted but for the text of one setting. -/
def sourceWith (setting : IntegerSetting) (text : Bytes) : ConfigurationSource := fun key =>
  if key = setting.key then some text else minimalSource key

theorem sourceWith_key : sourceWith setting text setting.key = some text := if_pos rfl

/-- If nothing is reported for the setting, the source is accepted. -/
theorem issues_sourceWith (h : issuesFor setting.key (sourceWith setting text) = []) :
    (loadServerConfiguration (sourceWith setting text)).issues = [] := by
  have hminimal : (loadServerConfiguration minimalSource).issues = [] := by decide
  have hpair : setting.key ≠ lit "WAREHOUSE_ADMIN_USERNAME" ∧
      setting.key ≠ lit "WAREHOUSE_ADMIN_PASSWORD" := by cases setting <;> decide
  apply List.eq_nil_iff_forall_not_mem.mpr
  intro issue hissue
  by_cases hkey : issue.key = setting.key
  · have hmem : issue ∈ issuesFor setting.key (sourceWith setting text) :=
      List.mem_filter.mpr ⟨hissue, decide_eq_true hkey⟩
    rw [h] at hmem
    cases hmem
  · -- of every other key the two sources say the same
    have hagree : Agree issue.key (sourceWith setting text) minimalSource := by
      unfold Agree sourceWith
      rw [if_neg hpair.1.symm, if_neg hpair.2.symm, if_neg hkey]
      split
      · exact ⟨rfl, rfl⟩
      · rfl
    have hmem : issue ∈ issuesFor issue.key (sourceWith setting text) :=
      List.mem_filter.mpr ⟨hissue, decide_eq_true rfl⟩
    rw [issuesFor_eq_of_agree hagree, issuesFor_nil hminimal] at hmem
    cases hmem

theorem accepts_iff (htext : text ≠ []) : setting.Accepts text n ↔
    text.all isdigit = true ∧ digitsValue text = n ∧ 1 ≤ n ∧ n ≤ setting.maximum := by
  constructor
  · intro haccepts
    obtain ⟨hissues, hvalue⟩ := haccepts _ sourceWith_key
    obtain ⟨hdigits, hloaded, hrange⟩ := loaded_of_unreported sourceWith_key hissues
    have hsome := (configuration_iff _).mpr (issues_sourceWith hissues)
    obtain ⟨configuration, hconfiguration⟩ := Option.isSome_iff_exists.mp hsome
    have hn : digitsValue text = n := by
      rw [← hloaded, ← value_of_accepted hconfiguration]
      exact hvalue configuration hconfiguration
    rw [hn] at hrange
    exact ⟨hdigits, hn, hrange⟩
  · rintro ⟨hdigits, rfl, hrange⟩ source hread
    have hfits : digitsValue text < 2 ^ 64 :=
      Nat.lt_of_le_of_lt hrange.2 (maximum_lt setting)
    have hissues : issuesFor setting.key source = [] := by
      rw [issuesFor_setting, loaded_of_text hread htext, parsePositive_eq htext,
        if_pos ⟨hdigits, hfits⟩, if_pos hrange]
    refine ⟨hissues, ?_⟩
    intro configuration hconfiguration
    rw [value_of_accepted hconfiguration]
    exact (loaded_of_unreported hread hissues).2.1

/-- What is reported does not depend on the source. -/
theorem reports_iff (htext : text ≠ []) : setting.Reports text code ↔
    ∃ issue ∈ (parsePositive setting.key text setting.maximum).2, issue.code = code := by
  have hissues : ∀ source, source setting.key = some text →
      issuesFor setting.key source = (parsePositive setting.key text setting.maximum).2 := by
    intro source hread
    rw [issuesFor_setting, loaded_of_text hread htext]
  constructor
  · intro hreports
    rw [← hissues _ sourceWith_key]
    exact hreports _ sourceWith_key
  · intro hissue source hread
    rw [hissues source hread]
    exact hissue

/-- A text that is not all digits has a character that is no digit. -/
theorem not_digits_iff : ¬ text.all isdigit = true ↔ ∃ c ∈ text, isdigit c = false := by
  simp

/-- A text is reported as no integer if it is no numeral, and also if it is one from 2^64 on. -/
theorem reports_invalidInteger_iff (htext : text ≠ []) :
    setting.Reports text .invalidInteger ↔
      ¬ text.all isdigit = true ∨ text.all isdigit = true ∧ 2 ^ 64 ≤ digitsValue text := by
  rw [reports_iff htext, parsePositive_eq htext]
  by_cases hread : text.all isdigit = true ∧ digitsValue text < 2 ^ 64
  · have hnot : ¬ (¬ text.all isdigit = true ∨
        text.all isdigit = true ∧ 2 ^ 64 ≤ digitsValue text) := by
      rintro (hdigits | hlarge)
      · exact hdigits hread.1
      · exact absurd hread.2 (Nat.not_lt.mpr hlarge.2)
    rw [if_pos hread]
    refine iff_of_false ?_ hnot
    rintro ⟨issue, hissue, hcode⟩
    split at hissue
    · cases hissue
    · rw [List.mem_singleton.mp hissue] at hcode
      cases hcode
  · have hcases : ¬ text.all isdigit = true ∨
        text.all isdigit = true ∧ 2 ^ 64 ≤ digitsValue text := by
      by_cases hdigits : text.all isdigit = true
      · exact Or.inr ⟨hdigits, Nat.not_lt.mp fun hfits => hread ⟨hdigits, hfits⟩⟩
      · exact Or.inl hdigits
    rw [if_neg hread]
    exact iff_of_true ⟨_, List.mem_singleton_self _, rfl⟩ hcases

/-- Only numerals below 2^64 are reported as out of range. -/
theorem reports_outOfRange_iff (htext : text ≠ []) :
    setting.Reports text .outOfRange ↔ text.all isdigit = true ∧ digitsValue text < 2 ^ 64 ∧
      (digitsValue text = 0 ∨ setting.maximum < digitsValue text) := by
  rw [reports_iff htext, parsePositive_eq htext]
  by_cases hread : text.all isdigit = true ∧ digitsValue text < 2 ^ 64
  · rw [if_pos hread]
    split
    · rename_i hrange
      have hnot : ¬ (digitsValue text = 0 ∨ setting.maximum < digitsValue text) := by omega
      simp [hnot]
    · rename_i hrange
      have hcases : digitsValue text = 0 ∨ setting.maximum < digitsValue text := by omega
      exact iff_of_true ⟨_, List.mem_singleton_self _, rfl⟩ ⟨hread.1, hread.2, hcases⟩
  · rw [if_neg hread]
    constructor
    · rintro ⟨issue, hissue, hcode⟩
      rw [List.mem_singleton.mp hissue] at hcode
      cases hcode
    · rintro ⟨hdigits, hfits, -⟩
      exact absurd ⟨hdigits, hfits⟩ hread

/-- Integer settings.  A text is classified by its value exactly if it is not a numeral from 2^64 on:
such a numeral is reported as no integer at all. -/
theorem integerSettings_iff (setting : IntegerSetting) (text : Bytes) (htext : text ≠ []) :
    setting.ByValue text ↔ ¬ (text.all isdigit = true ∧ 2 ^ 64 ≤ digitsValue text) := by
  constructor
  · rintro hvalue ⟨hdigits, hlarge⟩
    have hinvalid : setting.Reports text .invalidInteger := by
      rw [reports_iff htext, parsePositive_eq htext, if_neg (by omega)]
      exact ⟨_, List.mem_singleton_self _, rfl⟩
    obtain ⟨c, hc, hnodigit⟩ := hvalue.invalid.mp hinvalid
    rw [List.all_eq_true.mp hdigits c hc] at hnodigit
    cases hnodigit
  · intro hsmall
    refine ⟨fun n => accepts_iff htext, ?_, ?_⟩
    · rw [reports_invalidInteger_iff htext, not_digits_iff]
      constructor
      · rintro (hdigits | hlarge)
        · exact hdigits
        · exact absurd hlarge hsmall
      · exact Or.inl
    · rw [reports_outOfRange_iff htext]
      constructor
      · rintro ⟨hdigits, -, hrange⟩
        exact ⟨hdigits, hrange⟩
      · rintro ⟨hdigits, hrange⟩
        refine ⟨hdigits, ?_, hrange⟩
        by_contra hlarge
        exact hsmall ⟨hdigits, Nat.not_lt.mp hlarge⟩

/-- The port 8081 is classified by its value. -/
theorem integerSettings_iff_port : IntegerSetting.ByValue .httpPort (lit "8081") :=
  (integerSettings_iff .httpPort (lit "8081") (by decide)).mpr (by decide)

/-- The numeral of 2^64 is out of range for a port, but it is reported as no integer. -/
theorem integerSettings_numeral : ¬ IntegerSetting.ByValue .databasePort (lit "18446744073709551616") := by
  intro hvalue
  have hinvalid : IntegerSetting.Reports .databasePort (lit "18446744073709551616")
      .invalidInteger := by
    rw [reports_iff (by decide)]
    exact ⟨_, List.mem_singleton_self _, rfl⟩
  have hdigits : ¬ ∃ c ∈ lit "18446744073709551616", isdigit c = false := by decide
  exact hdigits (hvalue.invalid.mp hinvalid)

end ByValue

end Warehouse.Bootstrap
