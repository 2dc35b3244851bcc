import InputResolution.Log.Directive
import InputResolution.Log.Record

namespace InputResolution.Log

/-! Log filters.  A filter is a list of directives between commas.  The most
specific directive that fits a record decides whether it is written: a longer
target before a shorter one, then a field before none, and of two fields the one
whose name comes later.  A target fits whatever it is the beginning of. -/

abbrev Filter := List Directive

def Filter.parse? (text : Text) : Option Filter :=
  ((Text.pieces (· == ',') text).filter (! ·.isEmpty)).mapM Directive.parse?

/-! Deciding. -/

namespace Directive

/-- Nothing here is written inside a span, so a directive for spans or field
values is idle. -/
def isIdle (directive : Directive) : Bool :=
  directive.span.isSome || directive.field.any (·.hasValue)

/-- Every record has a message, and that counts as a field too. -/
def fits (directive : Directive) (record : Record) : Bool :=
  (directive.target.all fun target => target.isPrefixOf record.target) &&
    directive.field.all fun wanted =>
      wanted.name == "message".toList ||
      record.fields.any (·.name == wanted.name)

def targetLength (directive : Directive) : Nat :=
  (directive.target.map fun target => target.length + 1).getD 0

def fieldName (directive : Directive) : Text :=
  (directive.field.map WantedField.name).getD []

def isAsSpecific (first second : Directive) : Bool :=
  second.targetLength < first.targetLength ||
    (second.targetLength == first.targetLength &&
      ! decide (first.fieldName < second.fieldName))

end Directive

/-- The most specific of the directives that fit, the later of two that are
equally specific. -/
def Filter.deciding? (filter : Filter) (record : Record) : Option Directive :=
  (filter.filter fun directive =>
    ! directive.isIdle && directive.fits record).foldl
    (fun best directive =>
      if best.all directive.isAsSpecific then some directive else best)
    none

def Filter.admits (filter : Filter) (record : Record) : Bool :=
  match filter.deciding? record with
  | none => false
  | some directive => record.level.rank ≤ directive.threshold

/-- The first of the given filters that can be read, and information
otherwise. -/
def chosenFilter (texts : List Text) : Filter :=
  (texts.findSome? Filter.parse?).getD [⟨3, none, none, none⟩]

def records (filter : Filter) (events : List Event) : List Record :=
  (events.map Record.ofEvent).filter filter.admits

end InputResolution.Log
