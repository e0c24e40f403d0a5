import GridScript.Catalogue.Stored

/-!
# The standard catalogue

The symbols and materials that are known when no other catalogue is loaded.
-/

namespace GridScript.Catalogue

/-- An action with its further names and the parameters bound to its slots. -/
def action (name : String) (names slots : List String) : String × ActionSpec :=
  (name, ⟨names, slots.map some⟩)

/-- A symbol. -/
def symbol (category : Category) (bracket : BracketRole) (defaultAction : Option String)
    (actions : List (String × ActionSpec)) : SymbolSpec :=
  ⟨category, bracket, ArrivalMap.ofList actions, defaultAction⟩

/-- The standard symbols. -/
def standardSymbols : List (String × SymbolSpec) := [
  ("event", symbol .event .plain (some "on_trigger") [
      action "on_trigger" ["on trigger", "trigger"] [],
      action "on_interact" ["on interact", "interact", "on click"] [],
      action "on_join" ["on join", "join"] [],
      action "on_timer" ["on timer", "timer"] []]),
  ("function", symbol .function .plain (some "define") [
      action "define" ["function", "define"] []]),
  ("action", symbol .action .plain none [
      action "log" ["log", "say", "print"] ["text"],
      action "message" ["message", "tell"] ["text", "target"],
      action "give" ["give"] ["item", "target"],
      action "teleport" ["teleport", "tp"] ["location", "target"],
      action "play_sound" ["play sound", "sound"] ["sound", "location"]]),
  ("variable", symbol .assignment .plain none [
      action "set" ["set", "let"] ["name", "value"],
      action "add" ["add", "increment", "change"] ["name", "amount"],
      action "append" ["append", "push"] ["name", "value"],
      action "put" ["put", "map put"] ["name", "key", "value"],
      action "remove" ["remove", "delete", "unset"] ["name"]]),
  ("condition", symbol .condition .plain none [
      action "compare" ["compare", "if"] ["left", "op", "right", "negate"],
      action "is_empty" ["is empty", "empty"] ["value", "negate"],
      action "exists" ["exists", "is set"] ["name", "negate"],
      action "formula" ["formula", "expression"] ["value", "negate"],
      action "actor_online" ["actor online", "online"] ["actor", "negate"],
      action "has_item" ["has item"] ["item", "target", "negate"]]),
  ("else", symbol .alternative .plain (some "else") [
      action "else" ["else", "otherwise"] [],
      action "compare" ["else if", "else compare"] ["left", "op", "right", "negate"],
      action "is_empty" ["else if empty"] ["value", "negate"],
      action "exists" ["else if exists"] ["name", "negate"],
      action "formula" ["else if formula"] ["value", "negate"]]),
  ("loop", symbol .loop .plain (some "repeat") [
      action "repeat" ["repeat", "times"] ["times", "delay", "counter", "async"],
      action "while" ["while", "repeat while"] ["condition", "delay", "limit", "async"],
      action "for_each" ["for each", "foreach"] ["list", "var", "delay", "async"],
      action "forever" ["forever", "loop"] ["delay", "async"]]),
  ("control", symbol .control .plain none [
      action "wait" ["wait", "delay", "sleep"] ["ticks"],
      action "break" ["break"] [],
      action "continue" ["continue", "skip"] [],
      action "stop" ["stop", "end"] [],
      action "return" ["return"] ["value"]]),
  ("call", symbol .call .plain (some "call") [
      action "call" ["call", "run"]
        ["function", "result", "args", "args", "args", "args", "args", "args"]]),
  ("bracket_open", symbol .bracket .opening none []),
  ("bracket_close", symbol .bracket .closing none [])]

/-- The materials that are not read as plain items. -/
def standardMaterials : List (String × MaterialKind) := [
  ("paper", .text), ("book", .text), ("name_tag", .text),
  ("gold_nugget", .number), ("iron_nugget", .number), ("redstone_torch", .bool),
  ("lever", .bool), ("compass", .location), ("player_head", .actor)]

/-- The standard catalogue. -/
def standard : Catalogue where
  version := 1
  symbols := SortedMap.ofList standardSymbols
  materials := SortedMap.ofList standardMaterials

end GridScript.Catalogue
