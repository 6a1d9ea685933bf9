import Kconfig.Source

/-!
# Block keywords

The words that begin or end an entry or a block. The directives of an entry go up to the next of
them.
-/

namespace Kconfig

inductive BlockKeyword where
  | config (isMenu : Bool)
  | choice
  | comment
  | menu
  | endChoice
  | endMenu
  | source (kind : SourceKind)
  | openIf
  | closeIf
  | mainMenu
  deriving Repr, DecidableEq

/-- The block keyword that a word is. -/
def BlockKeyword.ofWord? (word : String) : Option BlockKeyword :=
  match word with
  | "config" => some (.config false)
  | "menuconfig" => some (.config true)
  | "choice" => some .choice
  | "endchoice" => some .endChoice
  | "comment" => some .comment
  | "menu" => some .menu
  | "endmenu" => some .endMenu
  | "if" => some .openIf
  | "endif" => some .closeIf
  | "mainmenu" => some .mainMenu
  | word => (SourceKind.ofKeyword? word).map .source

end Kconfig
