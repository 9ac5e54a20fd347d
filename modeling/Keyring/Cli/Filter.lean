import Keyring.Account.Event
import Keyring.Cli.Directive

/-!
# Filters

A filter is a list of directives between commas. Of its directives that an event meets, the most specific
one decides whether the event passes: the one with the longest source, then one with a field, then the
one whose field comes last, and of equals the one that is written last. Events are noted neither during
stretches of work nor with values that could be looked at, so that a directive about either meets none.
An event that meets no directive does not pass.
-/

namespace Keyring.Cli

/-- The names of an event's fields: its wording counts as one. -/
def eventFields (event : Event) : List String :=
  "message" :: event.fields.map (·.1)

namespace Directive

/-- The directive is about the event. -/
def isMet (directive : Directive) (event : Event) : Bool :=
  directive.stretch.isNone
    && directive.source.all (fun source => source.toList.isPrefixOf event.source.toList)
    && directive.field.all fun field => !field.hasValue && field.name ∈ eventFields event

/-- How specific a directive is, by the length of its source. -/
def reach (directive : Directive) : Nat :=
  match directive.source with
  | none => 0
  | some source => source.utf8ByteSize + 1

/-- The first directive is more specific than the second one. -/
def isAbove (first second : Directive) : Bool :=
  second.reach < first.reach
    || first.reach = second.reach
      && match first.field, second.field with
        | none, _ => false
        | some _, none => true
        | some field, some other => other.name < field.name

/-- The more specific one of two directives, or the second one. -/
def moreSpecific (first second : Directive) : Directive :=
  if first.isAbove second then first else second

end Directive

/-- What lets events pass. -/
structure Filter where
  directives : List Directive

namespace Filter

/-- Events of any source pass up to a rank. -/
def upTo (rank : Nat) : Filter :=
  ⟨[⟨rank, none, none, none⟩]⟩

/-- The filter that a text is, if all its directives are some. A text without directives lets errors
pass. -/
def ofText? (text : String) : Option Filter :=
  match (text.splitOn ",").filter (· ≠ "") with
  | [] => some (upTo Level.error.rank)
  | parts => (parts.mapM Directive.ofText?).map Filter.mk

/-- The filter that the environment asks for; warnings pass unless it asks for one. -/
def ofEnvironment (environment : String → Option String) : Filter :=
  ((environment "RUST_LOG").bind ofText?).getD (upTo Level.warn.rank)

/-- The directive that decides about an event. -/
def deciding? (filter : Filter) (event : Event) : Option Directive :=
  match filter.directives.filter (·.isMet event) with
  | [] => none
  | first :: rest => some (rest.foldl Directive.moreSpecific first)

/-- The event passes. -/
def passes (filter : Filter) (event : Event) : Bool :=
  (filter.deciding? event).any fun directive => event.level.rank ≤ directive.rank

end Filter

end Keyring.Cli
