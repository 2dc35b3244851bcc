import InputResolution.Disk.FileSystem

namespace InputResolution.Disk

/-! A file system as it was seen.  What was looked at ahead of time answers; a
path that nobody looked at is missing. -/

structure Sighting where
  place : Except Text Text
  kind : EntryKind
  content : Except Text Utf8.Bytes

def Sighting.nothing : Sighting :=
  ⟨.error "not looked at".toList, .missing, .error "not looked at".toList⟩

abbrev Sightings := List (Text × Sighting)

namespace Sightings

def sighting (sightings : Sightings) (path : Text) : Sighting :=
  (sightings.lookup path).getD .nothing

def fileSystem (sightings : Sightings) : FileSystem where
  canonicalize path := (sightings.sighting path).place
  kindOf path := (sightings.sighting path).kind
  read path := (sightings.sighting path).content

end Sightings

end InputResolution.Disk
