import Vops.Apps.AppPlan
import Vops.HostOps.AuthorizedKeys
import Vops.AgentControl.Redaction
import Vops.Lib.TextSearch

/-!
# From a manifest to a plan (`apps/spec-normalize.ts`, `apps/app-template-resolve.ts`)

* `sanitize` — the name that is made of an identifier.
* `secretName`, `toVolume`, `rawComponent` — the names on the host.
* `wholeSecretTemplate`, `wholeSelfSecret`, `resolveString` — references between environment variables.
* `resolveComponent`, `buildPlan`, `normalizeManifest` — the plan of an app.

Images, ports, resources and health checks come already converted; smoke test, domain, access and
post-install steps are left out.
-/

namespace Vops.Apps

open AuthorizedKeys (trim)

/-! ## Names -/

/-- `c.toLowerCase()`, as far as it matters which characters are letters and digits: two others have an
ASCII letter in lower case. -/
def lowerChar (c : Char) : List Char :=
  if c = '\u0130' then ['i', '\u0307'] else if c = '\u212A' then ['k'] else [c.toLower]

/-- `[a-z0-9-]` -/
def isSlugChar (c : Char) : Bool := c.isLower || c.isDigit || c == '-'

/-- `replaceAll(/[^a-z0-9-]+/g, '-')`: the last character of a run becomes the hyphen. -/
def foldRuns : List Char → List Char
  | [] => []
  | c :: cs =>
      if isSlugChar c then c :: foldRuns cs
      else if (cs.head?.map isSlugChar).getD true then '-' :: foldRuns cs
      else foldRuns cs

/-- What `sanitize` makes of an identifier; it may be empty. -/
def slug (id : String) : String :=
  String.ofList (((foldRuns (id.toList.flatMap lowerChar)).dropWhile (· = '-')).rdropWhile (· = '-'))

/-- `sanitize` -/
def sanitize (id : String) : Except String String :=
  if slug id = "" then .error s!"Cannot derive a valid name from '{id}'." else .ok (slug id)

/-- `secretName` -/
def secretName (app logical envName : String) : Except String String :=
  (sanitize envName).map fun key => "vops-" ++ app ++ "-" ++ logical ++ "-" ++ key

/-- The container of a component. -/
def containerName (app logical : String) : String := "vops-" ++ app ++ "-" ++ logical

/-- `CatalogVolume` -/
structure CatalogVolume where
  name : String
  mountPath : String

/-- `toVolume` -/
def toVolume (app logical : String) (v : CatalogVolume) : Except String AppVolumePlan :=
  (sanitize v.name).map fun key => ⟨"vops-" ++ app ++ "-" ++ logical ++ "-" ++ key, v.mountPath⟩

/-! ## The manifest -/

/-- `CatalogUserInputPrompt` -/
structure UserInputPrompt where
  sensitive : Bool
  default : Option String

/-- `valueFrom` -/
inductive CatalogValueFrom
  | generate (length : ℕ) (format : Option SecretFormat)
  | secretRef
  | userInput (ui : UserInputPrompt)

/-- `CatalogEnvVar` -/
structure CatalogEnvVar where
  name : String
  value : Option String
  secret : Bool
  valueFrom : Option CatalogValueFrom

/-- `CatalogComponent` -/
structure CatalogComponent where
  env : List CatalogEnvVar
  volumes : List CatalogVolume
  image : String
  ports : List AppPortPlan
  cpu : Option String
  memory : Option String
  health : Option AppHealthPlan
  dependsOn : List String
  command : Option (List String)

/-- A component of a composed app, with the option that it depends on. -/
structure ComposedComponent where
  name : String
  whenOption : Option String
  source : CatalogComponent

/-- `manifest.spec` -/
inductive CatalogSpec
  | standalone (source : CatalogComponent)
  | composed (options : List (String × Bool)) (components : List ComposedComponent)

/-- The components that are installed: those whose option, if any, is on by default. -/
def CatalogSpec.sources : CatalogSpec → List (String × CatalogComponent)
  | standalone source => [("app", source)]
  | composed options components =>
      (components.filter fun c =>
        (truthyText c.whenOption).all fun key => (key, true) ∈ options).map fun c => (c.name, c.source)

/-! ## References -/

/-- `EnvRef` -/
inductive EnvRef
  | plain (value : String)
  | secret (secret : AppSecretPlan)

/-- `RawComponent` -/
structure RawComponent where
  logical : String
  container : String
  src : CatalogComponent
  index : Record EnvRef

/-- `raw.replace(APP_ID_TOKEN, app)` -/
def replaceAppId (app value : String) : String :=
  String.ofList (replaceAll (fun _ text => (matchToken "app.id".toList text).map fun n => (n, app.toList))
    0 none value.toList)

/-- `vf.userInput`, if the value is asked for. -/
def CatalogEnvVar.userInput (e : CatalogEnvVar) : Option UserInputPrompt :=
  match e.valueFrom with
  | some (.userInput ui) => some ui
  | _ => none

/-- `e.value ?? ui?.default ?? ''` -/
def CatalogEnvVar.raw (e : CatalogEnvVar) : String :=
  (e.value.orElse fun _ => e.userInput.bind UserInputPrompt.default).getD ""

/-- The secret of a variable whose value comes from elsewhere: generated, referenced or asked for. -/
def CatalogEnvVar.ownSecret (e : CatalogEnvVar) (name : String) : Option AppSecretPlan :=
  match e.valueFrom with
  | some (.generate length format) => some ⟨name, e.name, some (length, format.getD .base64url), none⟩
  | some .secretRef => some ⟨name, e.name, none, some ""⟩
  | some (.userInput ui) => if ui.sensitive then some ⟨name, e.name, none, some ""⟩ else none
  | none => none

/-- `indexEnv` -/
def indexEnv (app logical : String) (e : CatalogEnvVar) : Except String EnvRef :=
  (secretName app logical e.name).map fun name =>
    match e.ownSecret name with
    | some secret => .secret secret
    | none =>
        if e.secret then .secret ⟨name, e.name, none, some (e.value.getD "")⟩
        else .plain (replaceAppId app e.raw)

/-- `rawComponent` -/
def rawComponent (app logical : String) (src : CatalogComponent) : Except String RawComponent := do
  let refs ← src.env.mapM (indexEnv app logical)
  return ⟨logical, containerName app logical, src,
    Record.ofEntries ((src.env.map CatalogEnvVar.name).zip refs)⟩

/-- `byLogical.get(logical)`: the last component of that name. -/
def byLogical (raws : List RawComponent) (logical : String) : Option RawComponent :=
  raws.reverse.find? fun r => r.logical == logical

/-- What stands in double braces at the start of a text, with up to eight spaces on either side, and the
length of it all. -/
def matchBraces {β : Type} (inner : List Char → Option (ℕ × β)) (text : List Char) : Option (ℕ × β) :=
  if "\x7b\x7b".toList.isPrefixOf text then
    let before := min 8 ((text.drop 2).takeWhile isJsSpace).length
    match inner (text.drop (2 + before)) with
    | none => none
    | some (n, b) =>
        let rest := text.drop (2 + before + n)
        let behind := min 8 (rest.takeWhile isJsSpace).length
        if "\x7d\x7d".toList.isPrefixOf (rest.drop behind) then some (2 + before + n + behind + 2, b)
        else none
  else none

/-- `env\.(\w+)`, of at most `most` characters. -/
def readEnvKey (most : Option ℕ) (text : List Char) : Option (ℕ × String) :=
  let key := (text.drop 4).takeWhile isWordChar
  if "env.".toList.isPrefixOf text ∧ key ≠ [] ∧ (most.all fun n => key.length ≤ n) then
    some (4 + key.length, String.ofList key)
  else none

/-- `components\.([\w-]+)\.`, and what is read behind it. -/
def readComponent {β : Type} (inner : List Char → Option (ℕ × β)) (text : List Char) :
    Option (ℕ × String × β) :=
  let comp := (text.drop 11).takeWhile fun c => isWordChar c || c == '-'
  if "components.".toList.isPrefixOf text ∧ comp ≠ [] ∧ (text.drop (11 + comp.length)).head? = some '.' then
    (inner (text.drop (11 + comp.length + 1))).map fun r =>
      (11 + comp.length + 1 + r.1, String.ofList comp, r.2)
  else none

/-- `host|env\.\w+` -/
def readHostOrEnv (text : List Char) : Option (ℕ × Option String) :=
  if "host".toList.isPrefixOf text then some (4, none)
  else (readEnvKey none text).map fun r => (r.1, some r.2)

/-- A match of a whole text. -/
def whole {β : Type} (m : List Char → Option (ℕ × β)) (text : List Char) : Option β :=
  (m text).bind fun r => if r.1 = text.length then some r.2 else none

/-- The secret that a variable of a component is. -/
def secretOf (raws : List RawComponent) (comp key : String) : Option AppSecretPlan :=
  match (byLogical raws comp).bind fun r => r.index.get? key with
  | some (.secret secret) => some secret
  | _ => none

/-- `wholeSecretTemplate` -/
def wholeSecretTemplate (raws : List RawComponent) (value : String) : Option AppSecretPlan :=
  (whole (matchBraces (readComponent (readEnvKey none))) (trim value.toList)).bind fun r =>
    secretOf raws r.1 r.2

/-- `wholeSelfSecret` -/
def wholeSelfSecret (raws : List RawComponent) (logical value : String) : Option AppSecretPlan :=
  (whole (matchBraces (readEnvKey (some 64))) (trim value.toList)).bind fun key => secretOf raws logical key

/-- `refValue` -/
def refValue (raws : List RawComponent) (comp : String) (key : Option String) : Except String String :=
  match byLogical raws comp with
  | none => .error s!"Template references unknown component '{comp}'."
  | some target =>
      match key with
      | none => .ok "127.0.0.1"
      | some key =>
          match target.index.get? key with
          | none => .error s!"Template references unknown env '{comp}.{key}'."
          | some (.plain value) => .ok value
          | some (.secret _) => .error (s!"Cannot interpolate secret '{comp}.env.{key}' inside a string — " ++
              "reference it as the whole value.")

/-- `text.replaceAll(expression, replacer)` with a replacer that may throw; the counter as in
`replaceAll`. -/
def replaceAllM {β : Type} (m : List Char → Option (ℕ × β)) (value : β → Except String String) :
    ℕ → List Char → Except String (List Char)
  | _, [] => .ok []
  | n + 1, _ :: cs => replaceAllM m value n cs
  | 0, c :: cs =>
      match m (c :: cs) with
      | some (n, b) => do
          let text ← value b
          let rest ← replaceAllM m value (n - 1) cs
          return text.toList ++ rest
      | none => (replaceAllM m value 0 cs).map (c :: ·)

/-- `APP_DEFERRED_TOKEN` -/
def matchDeferred (_ : Option Char) (text : List Char) : Option (ℕ × List Char) :=
  ((matchToken "app.domain".toList text).orElse fun _ => matchToken "app.scheme".toList text).map
    fun n => (n, [])

/-- `resolveString` -/
def resolveString (app logical value : String) (raws : List RawComponent) : Except String String := do
  let out ← replaceAllM (matchBraces (readComponent readHostOrEnv)) (fun r => refValue raws r.1 r.2) 0
    (replaceAppId app value).toList
  let out ← replaceAllM (matchBraces (readEnvKey (some 64))) (fun key => refValue raws logical (some key)) 0
    out
  if (TextSearch.indexOf "\x7b\x7b".toList (replaceAll matchDeferred 0 none out)).isSome then
    .error s!"Unresolved template in value: '{value}'."
  else return String.ofList out

/-! ## Components -/

/-- `placeEnv`: a secret or a plain variable. -/
def placeEnv (app logical : String) (raws : List RawComponent) (e : CatalogEnvVar) :
    Except String (AppSecretPlan ⊕ AppEnvPlain) := do
  let own ← secretName app logical e.name
  match e.ownSecret own with
  | some secret => return .inl secret
  | none =>
      match (wholeSecretTemplate raws e.raw).orElse fun _ => wholeSelfSecret raws logical e.raw with
      | some shared => return .inl ⟨shared.name, e.name, none, none⟩
      | none =>
          let resolved ← resolveString app logical e.raw raws
          return if e.secret then .inl ⟨own, e.name, none, some resolved⟩ else .inr ⟨e.name, resolved⟩

/-- `resolveHealth` -/
def resolveHealth (app logical : String) (raws : List RawComponent) :
    Option AppHealthPlan → Except String (Option AppHealthPlan)
  | none => .ok none
  | some health =>
      match health.command with
      | none => .ok (some health)
      | some command => do
          let command ← command.mapM fun c => resolveString app logical c raws
          return some { health with command := some command }

/-- `resolveComponent` -/
def resolveComponent (app : String) (raws : List RawComponent) (r : RawComponent) :
    Except String AppComponentPlan := do
  let placed ← r.src.env.mapM (placeEnv app r.logical raws)
  let volumes ← r.src.volumes.mapM (toVolume app r.logical)
  let health ← resolveHealth app r.logical raws r.src.health
  return {
    name := r.logical
    container := r.container
    image := r.src.image
    env := placed.filterMap Sum.getRight?
    secrets := placed.filterMap Sum.getLeft?
    ports := r.src.ports
    volumes := volumes
    cpu := r.src.cpu
    memory := r.src.memory
    health := health
    dependsOn := r.src.dependsOn
    command := r.src.command }

/-- `pickPrimary` -/
def pickPrimary (components : List AppComponentPlan) : Except String String :=
  let single := if components.length = 1 then components.head? else none
  let withHttp := components.find? fun c => c.ports.any fun p => p.expose && p.protocol == .http
  let exposed := components.find? fun c => c.ports.any AppPortPlan.expose
  match ((single.orElse fun _ => withHttp).orElse fun _ => exposed).orElse
    fun _ => components.getLast? with
  | some c => .ok c.name
  | none => .error "Cannot read properties of undefined (reading 'name')"

/-- `APP_DOMAIN_TOKEN.test(value)` -/
def hasDomainToken (value : String) : Bool :=
  value.toList.tails.any fun text => (matchToken "app.domain".toList text).isSome

/-- `buildPlan` -/
def buildPlan (name : String) (sources : List (String × CatalogComponent)) : Except String AppPlan := do
  let raws ← sources.mapM fun s => rawComponent name s.1 s.2
  let components ← raws.mapM (resolveComponent name raws)
  let primary ← pickPrimary components
  return {
    name := name
    pod := if sources.length > 1 then some s!"vops-{name}" else none
    components := components
    primary := primary
    needsAppDomain := components.any fun c => c.env.any fun e => hasDomainToken e.value
    warnings := [] }

/-- `normalizeManifest` -/
def normalizeManifest (appId : String) (spec : CatalogSpec) (installName : Option String) :
    Except String AppPlan := do
  let name ← sanitize (installName.getD appId)
  buildPlan name spec.sources

end Vops.Apps
