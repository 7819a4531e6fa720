import ClusterState.Data.SlashPath
import ClusterState.NodeServer.Server

/-! # The arguments of a mount

`buildMountArgs` fills a table of options from the driver and lets the volume context
overwrite it. Go ranges over maps in any order.
-/

namespace ClusterState.NodeServer

open ClusterState.Data

abbrev Options := List (String × String)

inductive DataLocality where
  | none
  | writePreferLocalDc
  deriving DecidableEq, Repr

/-- `unicode.ToLower` of letters, and of the other characters whose lower case is one. -/
def toLower (c : Char) : Char :=
  if c = '\u0130' then 'i' else if c = '\u212a' then 'k' else c.toLower

/-- `datalocality.FromString` -/
def DataLocality.fromString (s : String) : Option DataLocality :=
  let lower := String.ofList (s.toList.map toLower)
  if lower = "none" then some .none
  else if lower = "write_preferlocaldc" then some .writePreferLocalDc
  else Option.none

structure SeaweedFsDriver where
  cacheCapacityMB : Int
  cacheMetaTtlSec : Int
  concurrentReaders : Int
  concurrentWriters : Int
  uidMap : String
  gidMap : String
  dataCenter : String
  dataLocality : DataLocality

structure Mounter where
  driver : SeaweedFsDriver
  volumeID : String
  readOnly : Bool
  volContext : VolumeContext

structure MountSite where
  targetPath : String
  cacheDir : String
  localSocket : String
  filers : List String

/-- The order in which a range goes over a map. -/
structure Range where
  visit : Options → Options
  perm : ∀ entries, (visit entries).Perm entries

def VolumeContext.get (volContext : VolumeContext) (key : String) : String :=
  (volContext.lookup key).getD ""

def VolumeContext.pairs (volContext : VolumeContext) : Options :=
  volContext.entries.map fun entry => (entry.1, entry.2)

/-! ## Paths -/

def pathIsAbs (p : String) : Bool := SlashPath.isAbs p.toList

def pathClean (p : String) : String := String.ofList (SlashPath.clean p.toList)

def pathBase (p : String) : String := String.ofList (SlashPath.base p.toList)

def pathDir (p : String) : String := String.ofList (SlashPath.dir p.toList)

def pathJoin (p q : String) : String := String.ofList (SlashPath.join₂ p.toList q.toList)

/-- The path that is mounted unless the context names another one. -/
def Mounter.filerPath (m : Mounter) : String :=
  if pathIsAbs m.volumeID then m.volumeID
  else if m.volContext.get "path" = "" then pathJoin "/buckets" m.volumeID
  else m.volContext.get "path"

def Mounter.collection (m : Mounter) : String :=
  if m.volContext.get "collection" = "" then pathBase m.filerPath else m.volContext.get "collection"

/-! ## Options -/

def Mounter.argsMap (m : Mounter) (filers : List String) : Options :=
  [("collection", m.collection),
    ("filer", ",".intercalate filers),
    ("filer.path", m.filerPath),
    ("cacheCapacityMB", toString m.driver.cacheCapacityMB),
    ("cacheMetaTtlSec", toString m.driver.cacheMetaTtlSec),
    ("concurrentReaders", toString m.driver.concurrentReaders),
    ("concurrentWriters", toString m.driver.concurrentWriters),
    ("map.uid", m.driver.uidMap),
    ("map.gid", m.driver.gidMap),
    ("disk", ""),
    ("dataCenter", ""),
    ("replication", ""),
    ("ttl", ""),
    ("chunkSizeLimitMB", ""),
    ("volumeServerAccess", ""),
    ("readRetryTime", "")]

/-- `argsMap[key] = value`, where the key is there. -/
def Options.set (key value : String) (argsMap : Options) : Options :=
  argsMap.map fun option => if option.1 = key then (key, value) else option

def Mounter.dataLocality (m : Mounter) : Except String DataLocality :=
  let contextLocality := m.volContext.get "dataLocality"
  if contextLocality = "" then .ok m.driver.dataLocality
  else
    match DataLocality.fromString contextLocality with
    | some dataLocality => .ok dataLocality
    | none => .error ("invalid volumeContext dataLocality: " ++ contextLocality)

def checkDataLocality (dataLocality : DataLocality) (dataCenter : String) : Except String Unit :=
  if dataLocality ≠ .none ∧ dataCenter = "" then
    .error "dataLocality set, but not all locality-definitions were set"
  else .ok ()

/-- The options before the context is looked at. -/
def Mounter.defaults (m : Mounter) (filers : List String) : Except String Options := do
  let dataLocality ← m.dataLocality
  checkDataLocality dataLocality m.driver.dataCenter
  match dataLocality with
  | .writePreferLocalDc => pure (Options.set "dataCenter" m.driver.dataCenter (m.argsMap filers))
  | .none => pure (m.argsMap filers)

def parameterArgMap : Options := [("uidMap", "map.uid"), ("gidMap", "map.gid"), ("diskType", "disk")]

def ignoredArgs : List String :=
  ["dataLocality", "path", "parentDir", "volumeName", "mountRootUid", "mountRootGid"]

/-- The option that a key of the context stands for. -/
def argKey (key : String) : String := (parameterArgMap.lookup key).getD key

def overwrite (argsMap : Options) (entry : String × String) : Options :=
  if ignoredArgs.contains entry.1 then argsMap
  else if (argsMap.lookup (argKey entry.1)).isNone then argsMap
  else if entry.2 = "" then argsMap
  else Options.set (argKey entry.1) entry.2 argsMap

def argument (option : String × String) : String := "-" ++ option.1 ++ "=" ++ option.2

def Mounter.fixedArgs (m : Mounter) (site : MountSite) : List String :=
  ["-logtostderr=true", "mount", "-dirAutoCreate=false", "-umask=000",
    "-dir=" ++ site.targetPath, "-localSocket=" ++ site.localSocket,
    "-cacheDir=" ++ site.cacheDir] ++ if m.readOnly then ["-readOnly"] else []

/-- The options that are passed, when the context is gone over as `context` says. -/
def Mounter.options (m : Mounter) (filers : List String) (context : Range) : Except String Options :=
  (m.defaults filers).map fun argsMap => (context.visit m.volContext.pairs).foldl overwrite argsMap

def buildMountArgs (m : Mounter) (site : MountSite) (context options : Range) :
    Except String (List String) :=
  (m.options site.filers context).map fun argsMap =>
    m.fixedArgs site ++ ((options.visit argsMap).filter fun option => option.2 ≠ "").map argument

end ClusterState.NodeServer
