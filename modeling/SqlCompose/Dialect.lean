import SqlCompose.Text.Blank
import SqlCompose.Text.Listing
import SqlCompose.Text.Numeral
import SqlCompose.Text.Upper

namespace SqlCompose

inductive Dialect where
  | mysql
  | pgsql
  | sqlite
  | sqlsrv
  | ansi
  deriving DecidableEq, Repr, Inhabited

namespace Dialect

def all : List Dialect := [mysql, pgsql, sqlite, sqlsrv, ansi]

def name : Dialect → String
  | mysql => "mysql"
  | pgsql => "pgsql"
  | sqlite => "sqlite"
  | sqlsrv => "sqlsrv"
  | ansi => "ansi"

def ofExactName? (s : String) : Option Dialect := all.find? (·.name == s)

def ofDriver (driver : String) : Dialect :=
  match Text.toLowerAscii (Text.trim driver) with
  | "mysql" => mysql
  | "pgsql" | "postgres" | "postgresql" => pgsql
  | "sqlite" => sqlite
  | "sqlsrv" | "mssql" => sqlsrv
  | _ => ansi

def openQuote : Dialect → Char
  | mysql => '\x60'
  | sqlsrv => '['
  | _ => '"'

def closeQuote : Dialect → Char
  | mysql => '\x60'
  | sqlsrv => ']'
  | _ => '"'

def quoteChars (d : Dialect) (name : List Char) : List Char :=
  d.openQuote :: (name.flatMap fun c => if c = d.closeQuote then [c, c] else [c]) ++ [d.closeQuote]

def quote (d : Dialect) (name : String) : String := String.ofList (d.quoteChars name.toList)

def pathParts : List Char → List (List Char)
  | [] => [[]]
  | c :: rest =>
    if c = '.' then [] :: pathParts rest
    else
      match pathParts rest with
      | [] => [[c]]
      | part :: parts => (c :: part) :: parts

def quotePath (d : Dialect) (name : String) : String :=
  Text.joined "." ((pathParts name.toList).map fun part => d.quote (String.ofList part))

def earlyWindow (d : Dialect) (limit offset : UInt64) : String :=
  if d = sqlsrv ∧ limit ≠ 0 ∧ offset = 0 then " TOP " ++ Text.numeral limit.toNat else ""

-- Row window at the end of the statement. SQL Server needs both numbers there.
def lateWindow (d : Dialect) (limit offset : UInt64) : String :=
  if d = sqlsrv then
    if limit ≠ 0 ∧ offset ≠ 0 then
      " OFFSET " ++ Text.numeral offset.toNat ++ " ROWS FETCH NEXT " ++
        Text.numeral limit.toNat ++ " ROWS ONLY"
    else ""
  else
    (if limit = 0 then "" else " LIMIT " ++ Text.numeral limit.toNat) ++
      (if offset = 0 then "" else " OFFSET " ++ Text.numeral offset.toNat)

end Dialect

end SqlCompose
