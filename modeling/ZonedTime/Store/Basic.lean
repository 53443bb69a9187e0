import ZonedTime.Instant.Basic
import ZonedTime.Store.Cache
import ZonedTime.Store.Files
import ZonedTime.Store.Key
import ZonedTime.Text.DigitTable

set_option autoImplicit false

namespace ZonedTime

inductive Setting where
  | key (name : Text)
  | file (path : Text)
  | keyOrRule (text : Text)
  deriving DecidableEq, Repr

-- One colon at the start is allowed. Digits hint at a yearly rule, but keys have some too.
def Setting.parse (value : Text) : Setting :=
  let value := if value.head? = some ':' then value.drop 1 else value
  if value.isEmpty then .key (Text.ofString "UTC")
  else if Path.isAbsolute value then .file value
  else if value.any Text.isAnyDigit then .keyOrRule value
  else .key value

structure Store where
  files : Files
  folders : List Text
  package : Bool
  cache : Cache
  setting : Option Text
  system : Option Loaded
  held : List (Text × Loaded)
  deriving DecidableEq

namespace Store

def empty : Store where
  files := .empty
  folders := []
  package := false
  cache := .empty
  setting := none
  system := none
  held := []

def packageFolder : Text := Text.ofString "@/pkg/tzdata"

def packageZones : Text := packageFolder ++ Text.ofString "/zoneinfo"

def inFolders (files : Files) (key : Text) : List Text -> Bytes
  | [] => []
  | folder :: rest =>
    match files.read? (Path.join folder key) with
    | some bytes => bytes
    | none => inFolders files key rest

def inPackage (store : Store) (key : Text) : Option Bytes :=
  if store.package then store.files.read? (Path.join packageZones key) else none

/-- The file of a key: the first one in the folders, or else the package's if that one is empty. -/
def file (store : Store) (key : Text) : Except Error Bytes :=
  let found := inFolders store.files key store.folders
  if !found.isEmpty then .ok found
  else
    match store.inPackage key with
    | some bytes => .ok bytes
    | none => .error (.unknownZone key)

def load (store : Store) (key : Text) : Except Error Rules := do
  let key <- Key.check key
  let bytes <- store.file key
  if !Tzif.magic.isPrefixOf bytes then throw (.unknownZone key)
  Tzif.parse (some key) bytes

abbrev Action (α : Type) := Store -> Except Error α × Store

def fetch (key : Text) : Action Loaded := fun store =>
  match store.cache.get store.load key with
  | .ok (loaded, cache) => (.ok loaded, { store with cache })
  | .error error => (.error error, store)

def own (rules : Except Error Rules) : Action Loaded := fun store =>
  match rules with
  | .ok rules =>
    let cache := { store.cache with fresh := store.cache.fresh + 1 }
    (.ok ⟨store.cache.fresh, rules⟩, { store with cache })
  | .error error => (.error error, store)

def ofRule (text : Text) : Except Error Rules :=
  match Yearly.parse text with
  | .ok rule => .ok (.ofYearly rule)
  | .error fault => .error (.rule fault)

def ofFile (files : Files) (path : Text) : Except Error Rules :=
  match files.read? path with
  | some bytes => Tzif.parse none bytes
  | none => .error .noFile

def readSetting : Setting -> Action Loaded
  | .key name => fetch name
  | .file path => fun store => own (ofFile store.files path) store
  | .keyOrRule text => fun store =>
    match fetch text store with
    | (.error (.unknownZone _), store) => own (ofRule text) store
    | result => result

def readSystem : Action Loaded := fun store =>
  match store.setting with
  | some value => readSetting (.parse value) store
  | none => (.error .noFile, store)

def resetSystem : Action Loaded := fun store =>
  match readSystem store with
  | (.ok loaded, store) => (.ok loaded, { store with system := some loaded })
  | failed => failed

def systemZone : Action Loaded := fun store =>
  match store.system with
  | some loaded => (.ok loaded, store)
  | none => resetSystem store

def collect (store : Store) : Store :=
  let used := store.held.map (·.2.id) ++ (store.system.map (·.id)).toList
  { store with cache := store.cache.collect used }

def isZoneFile (bytes : Bytes) : Bool := Tzif.magic.isPrefixOf bytes

/-- The zone files below a folder, but for two folders with copies at its top. -/
def keysBelow (files : Files) (folder : Text) : List Text :=
  (files.below folder).filterMap fun (path, bytes) =>
    let isCopy := 1 < path.length
      && (path.head? == some (Text.ofString "right") || path.head? == some (Text.ofString "posix"))
    if isZoneFile bytes && !isCopy then some (['/'].intercalate path) else none

def listedKeys (store : Store) : Except Error (List Text) :=
  let list := if store.package then
      store.files.read? (packageFolder ++ Text.ofString "/zones")
    else none
  match list with
  | none => .ok []
  | some bytes =>
    match String.fromUTF8? ⟨bytes.toArray⟩ with
    | none => .error (.data .notText)
    | some text =>
      let lines := Text.splitAll (fun c => c == '\n' || c == '\r') text.toList
      .ok ((lines.map Text.trimBlanks).filter (!·.isEmpty))

def available (store : Store) : Except Error (List Text) := do
  let keys := (<- store.listedKeys) ++ store.folders.flatMap (keysBelow store.files)
  return (keys.eraseDups.filter (· != Text.ofString "posixrules")).mergeSort Text.le

def foldersOfText (value : Text) : List Text :=
  (Text.splitAll (· == ':') value).filter Path.isAbsolute

inductive Step where
  | write (path : Text) (bytes : Bytes)
  | remove (path : Text)
  | search (folders : List Text)
  | searchText (value : Text)
  | install
  | get (key : Text)
  | hold (name key : Text)
  | show (name : Text)
  | drop (name : Text)
  | eq (a b : Text)
  | clear
  | clearKeys (keys : List Text)
  | available
  | setSetting (value : Text)
  | setting
  | resetSystem
  | system
  | reload (key : Text)
  | assume (key : Text) (wall : Reading) (choice : Text)

inductive Answer where
  | done
  | texts (texts : List Text)
  | place (place : Place)
  | flag (flag : Bool)
  | setting (setting : Setting)
  | instant (instant : Instant)

def placeOf (loaded : Loaded) : Place := ⟨loaded.rules, none⟩

def answer {α : Type} (form : α -> Except Error Answer) (result : Except Error α × Store) :
    Except Error Answer × Store :=
  (result.1.bind form, result.2)

def heldRules (store : Store) (name : Text) : Except Error Loaded :=
  match store.held.lookup name with
  | some loaded => .ok loaded
  | none => .error .unsupported

def release (store : Store) (name : Text) : Store :=
  { store with held := store.held.filter (·.1 != name) }

def apply (store : Store) : Step -> Except Error Answer × Store
  | .write path bytes =>
    (.ok .done, { store with files := store.files.write (Path.components path) bytes })
  | .remove path =>
    match store.files.remove? (Path.components path) with
    | some files => (.ok .done, { store with files })
    | none => (.error .noFile, store)
  | .search folders =>
    if folders.all Path.isAbsolute then
      let folders := folders.map Path.normal
      (.ok (.texts folders), { store with folders })
    else (.error .relativePath, store)
  | .searchText value =>
    let folders := foldersOfText value
    (.ok (.texts folders), { store with folders })
  | .install => (.ok .done, { store with package := true })
  | .get key => answer (fun loaded => .ok (.place (placeOf loaded))) (fetch key store)
  | .hold name key =>
    match fetch key store with
    | (.ok loaded, store) =>
      let store := store.release name
      (.ok (.place (placeOf loaded)), { store with held := (name, loaded) :: store.held })
    | (.error error, store) => (.error error, store)
  | .show name => ((store.heldRules name).map fun loaded => .place (placeOf loaded), store)
  | .drop name => (.ok .done, store.release name)
  | .eq a b =>
    (do
      let first <- store.heldRules a
      let second <- store.heldRules b
      return .flag (first.rules.same second.rules), store)
  | .clear => (.ok .done, { store with cache := store.cache.clear })
  | .clearKeys keys => (.ok .done, { store with cache := store.cache.clearKeys keys })
  | .available => (store.available.map .texts, store)
  | .setSetting value => (.ok .done, { store with setting := some value })
  | .setting =>
    match store.setting with
    | some value => (.ok (.setting (.parse value)), store)
    | none => (.error .noFile, store)
  | .resetSystem => answer (fun _ => .ok .done) (Store.resetSystem store)
  | .system => answer (fun loaded => .ok (.place (placeOf loaded))) (systemZone store)
  | .reload key =>
    match fetch key store with
    | (.ok _, store) => answer (fun loaded => .ok (.place (placeOf loaded))) (fetch key store)
    | (.error error, store) => (.error error, store)
  | .assume key wall choice =>
    answer
      (fun loaded => (wall.inZone (.place (placeOf loaded)) choice).map .instant)
      (fetch key store)

def run (store : Store) (step : Step) : Except Error Answer × Store :=
  let (result, next) := store.apply step
  (result, next.collect)

end Store

end ZonedTime
