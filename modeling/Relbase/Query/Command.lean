import Relbase.Value.Comparator

/-!
# Commands

A command is what a query asks for.  Conditions are trees whose leaves compare an
attribute with a literal; the tree is generic in its leaves, since joining needs
to know nothing about them.
-/

namespace Relbase

inductive Connective where
  | and
  | or
  deriving DecidableEq, Repr

inductive Formula (α : Type) where
  | leaf (test : α)
  | joined (left : Formula α) (connective : Connective) (right : Formula α)
  deriving DecidableEq, Repr

structure Comparison where
  column : Text
  comparator : Comparator
  literal : Text
  deriving DecidableEq, Repr

abbrev Condition := Formula Comparison

inductive Columns where
  | all
  | named (names : List Text)
  deriving DecidableEq, Repr

inductive Command where
  | use (database : Text)
  | createDatabase (database : Text)
  | dropDatabase (database : Text)
  | createTable (table : Text) (attributes : List Text) (displayName : Text)
  | dropTable (table : Text)
  | addAttribute (table name : Text)
  | dropAttribute (table name : Text)
  | insert (table : Text) (values : List Text)
  | select (columns : Columns) (table : Text) (condition : Option Condition)
  | delete (table : Text) (condition : Condition)
  | update (table : Text) (assignments : List (Text × Text)) (condition : Condition)
  | join (leftTable rightTable leftAttribute rightAttribute : Text)
  deriving DecidableEq, Repr

end Relbase
