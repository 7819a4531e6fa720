import ClusterState.Concurrency.Alone
import ClusterState.Factorio.StateDir

/-! # The start-up of the game server

The script classifies the saves, copies them before an upgrade, makes the world
in a directory of its own when there is none, publishes two markers, and becomes
the server.
-/

namespace ClusterState.Factorio

open Concurrency

structure Settings where
  version : Text
  stateDir : Text
  configSourceDir : Text
  pid : Text

/-- The files of a `for name in "${...}"/*` loop. -/
inductive Glob where
  | tempSaves
  | creationRoots
  | markerTemps (m : Marker)
  | zips
  deriving DecidableEq, Repr

def Glob.place : Glob → Place
  | .tempSaves => .saves
  | .creationRoots => .top
  | .markerTemps _ => .top
  | .zips => .saves

def Glob.«matches» : Glob → Name → Bool
  | .tempSaves => isTempSave
  | .creationRoots => isCreationRoot
  | .markerTemps m => m.isTemp
  | .zips => isZip

/-- How the conversion of the scenario ended, or which signal the script got meanwhile. -/
inductive Conversion where
  | exited (status : Nat)
  | signalled (status : Nat)
  deriving DecidableEq, Repr

inductive Command where
  | realpathDirectory
  | realpathFile (name : Text)
  | mkdirs
  | cpConfig (source name : Text)
  | chmodConfig (name : Text)
  | glob (g : Glob)
  | entry (place : Place) (name : Name)
  | read (place : Place) (name : Name)
  | wc (place : Place) (name : Name)
  | rm (place : Place) (name : Name)
  | rmTree (name : Name)
  | rmForced (name : Name)
  | date
  | mkdirStaging (staging : Name)
  | cpSave (save staging : Name)
  | writeMetadata (staging : Name) (text : Text)
  | mvBackup (staging backup : Name)
  | mapfile
  | mktempRoot
  | mkdirRoot (root : Name)
  | cpScenario (root source name : Text)
  | chmodScenario (root : Name)
  | writeConversion (root : Name) (text : Text)
  | chmodConversion (root : Name)
  | scenario2map (root : Name)
  | initialSave (root : Name)
  | mvSave (root : Name)
  | mktemp (m : Marker)
  | writeTemp (name : Name) (text : Text)
  | mvWorldMarker (temp : Name)
  | mvVersionMarker (temp : Name)
  | exec

/-- What a command prints or a test finds, `none` if the command fails. -/
abbrev Command.Value : Command → Type
  | .realpathDirectory => Option Text
  | .realpathFile _ => Option Text
  | .mkdirs => Option Unit
  | .cpConfig _ _ => Option Unit
  | .chmodConfig _ => Option Unit
  | .glob _ => List Name
  | .entry _ _ => Option Entry
  | .read _ _ => Option Text
  | .wc _ _ => Option Nat
  | .rm _ _ => Option Unit
  | .rmTree _ => Option Unit
  | .rmForced _ => Option Unit
  | .date => Option Text
  | .mkdirStaging _ => Option Unit
  | .cpSave _ _ => Option Unit
  | .writeMetadata _ _ => Option Unit
  | .mvBackup _ _ => Option Unit
  | .mapfile => Option (List Text)
  | .mktempRoot => Option Name
  | .mkdirRoot _ => Option Unit
  | .cpScenario _ _ _ => Option Unit
  | .chmodScenario _ => Option Unit
  | .writeConversion _ _ => Option Unit
  | .chmodConversion _ => Option Unit
  | .scenario2map _ => Conversion
  | .initialSave _ => Option Leaf
  | .mvSave _ => Option Unit
  | .mktemp _ => Option Name
  | .writeTemp _ _ => Option Unit
  | .mvWorldMarker _ => Option Unit
  | .mvVersionMarker _ => Option Unit
  | .exec => Option Unit

/-- How the script exits: with a message and status 1, with the status of a command that
`set -e` does not let pass, or with a status it was given. -/
inductive Exit where
  | message (text : Text)
  | errexit
  | status (n : Nat)
  deriving DecidableEq, Repr

abbrev Script := Program Command Command.Value Exit

def act (r : Command) : Script r.Value := .ask r .done

def orExit {α : Type} : Option α → Script α
  | some a => pure a
  | none => throw .errexit

def refuse {α : Type} (text : String) (path : Text) : Script α :=
  throw (.message (text.toList ++ path))

/-! ## The configuration -/

def requiredConfigSources : List Text :=
  ["config.ini".toList, "map-gen-settings.json".toList, "map-settings.json".toList,
    "mod-list.json".toList, "scenario-control.lua".toList, "scenario-description.json".toList,
    "server-adminlist.json".toList, "server-settings.json".toList, "server-whitelist.json".toList]

def copiedConfigs : List Text :=
  ["config.ini".toList, "map-gen-settings.json".toList, "map-settings.json".toList,
    "mod-list.json".toList, "server-adminlist.json".toList, "server-settings.json".toList,
    "server-whitelist.json".toList]

def within (directory path : Text) : Bool :=
  directory == "/".toList || (directory ++ "/".toList).isPrefixOf path

def resolveSources (settings : Settings) (directory : Text) :
    List Text → Script (List (Text × Text))
  | [] => pure []
  | name :: rest => do
    let path := settings.configSourceDir ++ "/".toList ++ name
    match ← act (.realpathFile name) with
    | none => refuse "Config source is missing or not a regular file: " path
    | some resolved =>
      if within directory resolved then
        return (name, resolved) :: (← resolveSources settings directory rest)
      else refuse "Config source escapes config source directory: " path

def checkSources (settings : Settings) : Script (List (Text × Text)) := do
  match ← act .realpathDirectory with
  | none =>
    refuse "Config source directory is missing or not a directory: " settings.configSourceDir
  | some directory => resolveSources settings directory requiredConfigSources

/-- `${resolved_config_sources[name]}` -/
def resolvedSource (sources : List (Text × Text)) (name : Text) : Text := (sources.lookup name).getD []

def copyConfigs (sources : List (Text × Text)) : List Text → Script Unit
  | [] => pure ()
  | name :: rest => do
    orExit (← act (.cpConfig (resolvedSource sources name) name))
    orExit (← act (.chmodConfig name))
    copyConfigs sources rest

/-! ## What earlier runs left behind -/

def removeTempSaves : List Name → Script Unit
  | [] => pure ()
  | name :: rest => do
    if isFile (← act (.entry .saves name)) then orExit (← act (.rm .saves name))
    removeTempSaves rest

def removeCreationRoots (settings : Settings) : List Name → Script Unit
  | [] => pure ()
  | name :: rest => do
    if isDirectory (← act (.entry .top name)) then
      orExit (← act (.rmTree name))
      removeCreationRoots settings rest
    else
      refuse "Refusing to remove non-directory isolated creation state: "
        (settings.stateDir ++ "/".toList ++ name)

def malformedTemp : Marker → String
  | .world => "Refusing malformed stale world marker temporary: "
  | .version => "Refusing malformed stale version marker temporary: "

def removeMarkerTemps (settings : Settings) (m : Marker) : List Name → Script Unit
  | [] => pure ()
  | name :: rest => do
    if isFile (← act (.entry .top name)) then
      orExit (← act (.rm .top name))
      removeMarkerTemps settings m rest
    else refuse (malformedTemp m) (settings.stateDir ++ "/".toList ++ name)

def removeStale (settings : Settings) : Script Unit := do
  let tempSaves ← act (.glob .tempSaves)
  let creationRoots ← act (.glob .creationRoots)
  let worldTemps ← act (.glob (.markerTemps .world))
  let versionTemps ← act (.glob (.markerTemps .version))
  let old ← act (.entry .top versionMarkerTemp)
  removeTempSaves tempSaves
  removeCreationRoots settings creationRoots
  removeMarkerTemps settings .world worldTemps
  removeMarkerTemps settings .version
    (if old.isSome then versionTemps ++ [versionMarkerTemp] else versionTemps)

/-! ## What is there -/

/-- `save_files`, from which the other two lists are taken. -/
def regularSaves : List Name → Script (List Name)
  | [] => pure []
  | name :: rest => do
    if isTempSave name then regularSaves rest
    else if isFile (← act (.entry .saves name)) then return name :: (← regularSaves rest)
    else regularSaves rest

def readVersionMarker : Script Text := do
  if isFile (← act (.entry .top versionMarker)) then orExit (← act (.read .top versionMarker))
  else pure []

def readWorldMarker (settings : Settings) : Script Bool := do
  match ← act (.entry .top worldMarker) with
  | none => pure false
  | some (.file _) =>
    if (← act (.read .top worldMarker)) = some finalSave then pure true
    else refuse "Friendly factories world marker has unexpected content" []
  | some _ =>
    refuse "Friendly factories world marker is not a regular file: "
      (settings.stateDir ++ "/".toList ++ worldMarker)

inductive Plan where
  | existing
  | create
  deriving DecidableEq, Repr

def choosePlan (settings : Settings) (marked : Bool) (lastStarted : Text) (saves : List Name) :
    Script Plan :=
  let primary := saves.filter isPrimary
  let autosaves := saves.filter isAutosave
  if marked then
    if primary = [finalSave] then pure .existing
    else refuse "Refusing startup: migrated state must contain exactly "
      (finalSave ++ " plus optional Factorio autosaves".toList)
  else if autosaves ≠ [] then
    refuse "Refusing one-time replacement: unmarked state contains autosaves" []
  else match primary with
    | [] => pure .create
    | [save] =>
      if save = finalSave then pure .existing
      else if save = legacySave ∧ lastStarted = legacyVersion ∧ settings.version = legacyVersion then do
        orExit (← act (.rm .saves save))
        pure .create
      else
        refuse "Refusing one-time replacement: unexpected unmarked primary save "
          (save ++ " or version ".toList ++ if lastStarted = [] then "missing".toList else lastStarted)
    | _ => refuse "Refusing one-time replacement: found "
        ((toString primary.length).toList ++ " unmarked primary saves".toList)

/-! ## The backup -/

/-- `${version//[^[:alnum:]._-]/_}` -/
def safeVersion (version : Text) : Text :=
  version.map fun c => if c.isAlphanum || c == '.' || c == '_' || c == '-' then c else '_'

def backupName (settings : Settings) (lastStarted timestamp : Text) : Name :=
  "from-".toList ++ safeVersion lastStarted ++ "-to-".toList ++ safeVersion settings.version ++
    '-' :: timestamp

def stagingName (settings : Settings) (backup : Name) : Name :=
  '.' :: backup ++ ".tmp-".toList ++ settings.pid

def backupMetadata (settings : Settings) (lastStarted timestamp : Text) : Text :=
  "previous-version=".toList ++ lastStarted ++ '\n' :: "new-version=".toList ++ settings.version ++
    '\n' :: "created-utc=".toList ++ timestamp ++ ['\n']

def copySaves (staging : Name) : List Name → Script Unit
  | [] => pure ()
  | save :: rest => do
    if isFile (← act (.entry .saves save)) then orExit (← act (.cpSave save staging))
    copySaves staging rest

def backUp (settings : Settings) (lastStarted : Text) (saves : List Name) : Script Unit := do
  let timestamp ← orExit (← act .date)
  let backup := backupName settings lastStarted timestamp
  let staging := stagingName settings backup
  let target := if exists? (← act (.entry .preUpgrade backup)) then backup ++ '-' :: settings.pid
    else backup
  orExit (← act (.mkdirStaging staging))
  copySaves staging saves
  orExit (← act (.writeMetadata staging (backupMetadata settings lastStarted timestamp)))
  orExit (← act (.mvBackup staging target))

/-! ## The world -/

def expectedConfigLines : List Text :=
  ["[path]".toList, "read-data=/opt/factorio/data".toList, "write-data=/factorio".toList, [],
    "[other]".toList, "autosave-interval=10".toList, "autosave-slots=12".toList,
    "check-updates=false".toList, "enable-experimental-updates=false".toList,
    "enable-new-mods=false".toList]

def conversionConfig (settings : Settings) (root : Name) : Text :=
  "[path]\nread-data=/opt/factorio/data\nwrite-data=".toList ++ settings.stateDir ++ '/' :: root ++
    "\n\n[other]\nautosave-interval=10\nautosave-slots=12\ncheck-updates=false\nenable-experimental-updates=false\nenable-new-mods=false\n".toList

def cleanupCreateArtifacts (root : Name) : Script Unit := do
  let _ ← act (.rmTree root)

def exitAfterCleanup {α : Type} (root : Name) (exit : Exit) : Script α := do
  cleanupCreateArtifacts root
  throw exit

def prepareRoot (settings : Settings) (sources : List (Text × Text)) (root : Name) :
    Script Unit := do
  orExit (← act (.mkdirRoot root))
  orExit (← act (.cpScenario root (resolvedSource sources "scenario-control.lua".toList)
    "control.lua".toList))
  orExit (← act (.cpScenario root (resolvedSource sources "scenario-description.json".toList)
    "description.json".toList))
  orExit (← act (.chmodScenario root))
  orExit (← act (.writeConversion root (conversionConfig settings root)))
  orExit (← act (.chmodConversion root))

def publishSave (settings : Settings) (root : Name) : Script Unit := do
  let path := settings.stateDir ++ "/saves/".toList ++ finalSave
  match ← act (.initialSave root) with
  | some (.file _) =>
    if (← act (.entry .saves finalSave)).isSome then
      exitAfterCleanup root
        (.message ("Cannot publish initial scenario: final target already exists: ".toList ++ path))
    else match ← act (.mvSave root) with
      | none => exitAfterCleanup root .errexit
      | some () =>
        if (← act (.initialSave root)).isSome then
          exitAfterCleanup root (.message
            ("Cannot publish initial scenario without overwriting the final target: ".toList ++ path))
        else cleanupCreateArtifacts root
  | _ =>
    exitAfterCleanup root
      (.message "Scenario conversion did not produce a regular temporary save".toList)

def createIn (settings : Settings) (sources : List (Text × Text)) (root : Name) : Script Unit := do
  prepareRoot settings sources root
  match ← act (.scenario2map root) with
  | .signalled status => exitAfterCleanup root (.status status)
  | .exited 0 => publishSave settings root
  | .exited status => exitAfterCleanup root (.status status)

def create (settings : Settings) (sources : List (Text × Text)) : Script Unit := do
  if (← act (.entry .saves finalSave)).isSome then
    refuse "Cannot create initial scenario: final target already exists: "
      (settings.stateDir ++ "/saves/".toList ++ finalSave)
  else
    let lines ← orExit (← act .mapfile)
    if lines = expectedConfigLines then
      let root ← orExit (← act .mktempRoot)
      tryCatch (createIn settings sources root) (exitAfterCleanup root)
    else refuse "Factorio config source does not have the expected exact shape" []

/-! ## The markers -/

/-- The file is regular, reads as the text, and has its size with a newline. -/
def holdsLine (name : Name) (text : Text) : Script Bool := do
  if isFile (← act (.entry .top name)) then
    if (← act (.read .top name)) = some text then
      return decide ((← act (.wc .top name)) = some (text.length + 1))
    else pure false
  else pure false

def Marker.described : Marker → String
  | .world => "friendly factories world marker"
  | .version => "Factorio version marker"

def writeMarkerTemp (m : Marker) (temp : Name) (text : Text) : Script Unit := do
  if isFile (← act (.entry .top temp)) then
    match ← act (.writeTemp temp (text ++ ['\n'])) with
    | none => refuse ("Cannot write " ++ m.described ++ " temporary") []
    | some () =>
      if ← holdsLine temp text then pure ()
      else refuse ("Cannot publish " ++ m.described ++ ": temporary content is invalid") []
  else refuse ("Cannot publish " ++ m.described ++ ": temporary is not a regular file") []

def moveMarker (m : Marker) (temp : Name) : Script Unit :=
  match m with
  | .world => do
    orExit (← act (.mvWorldMarker temp))
    if (← act (.entry .top temp)).isSome then
      refuse "Cannot publish friendly factories world marker without overwriting the final target" []
    else pure ()
  | .version => do orExit (← act (.mvVersionMarker temp))

def publishMarker (m : Marker) (text : Text) : Script Unit := do
  let temp ← orExit (← act (.mktemp m))
  tryCatch (do
    writeMarkerTemp m temp text
    moveMarker m temp) fun exit => do
      let _ ← act (.rmForced temp)
      throw exit
  if ← holdsLine m.name text then pure ()
  else refuse ("Cannot publish " ++ m.described ++ ": final content is invalid") []

/-! ## The script -/

def makeWorld (settings : Settings) (sources : List (Text × Text)) (lastStarted : Text)
    (saves : List Name) : Plan → Script Unit
  | .existing =>
    if lastStarted ≠ [] ∧ lastStarted ≠ settings.version then backUp settings lastStarted saves
    else pure ()
  | .create => create settings sources

def publishWorld (marked : Bool) : Script Unit :=
  if marked then pure () else publishMarker .world finalSave

def publishVersion (settings : Settings) (lastStarted : Text) : Script Unit :=
  if lastStarted = settings.version then pure () else publishMarker .version settings.version

def serve (settings : Settings) (marked : Bool) (lastStarted : Text) : Script Unit := do
  if isFile (← act (.entry .saves finalSave)) then
    publishWorld marked
    publishVersion settings lastStarted
    orExit (← act .exec)
  else
    refuse "Deterministic scenario save is missing or not regular: "
      (settings.stateDir ++ "/saves/".toList ++ finalSave)

def script (settings : Settings) : Script Unit := do
  if settings.version = [] then refuse "VERSION: VERSION must be set" []
  let sources ← checkSources settings
  orExit (← act .mkdirs)
  copyConfigs sources copiedConfigs
  removeStale settings
  let saves ← regularSaves (← act (.glob .zips))
  let lastStarted ← readVersionMarker
  let marked ← readWorldMarker settings
  let plan ← choosePlan settings marked lastStarted saves
  makeWorld settings sources lastStarted saves plan
  serve settings marked lastStarted

end ClusterState.Factorio
