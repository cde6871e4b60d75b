import PivotQuery.Dialect.Basic

namespace PivotQuery.Dialect

-- Booleans are stored as integers, and an offset needs a limit.
def sqlite : Dialect where
  name := "sqlite"
  types :=
    { core := ⟨"INTEGER", "REAL", "TEXT", "BOOLEAN", "DATE", "TIMESTAMP", "BLOB"⟩
      aliases := [
        ("INT", .integer), ("BIGINT", .integer), ("SMALLINT", .integer), ("TINYINT", .integer),
        ("FLOAT", .real), ("DOUBLE", .real), ("NUMERIC", .real), ("DECIMAL", .real),
        ("VARCHAR", .string), ("CHAR", .string), ("CLOB", .string), ("DATETIME", .timestamp)] }
  trueLiteral := "1"
  falseLiteral := "0"
  nullSafeOperator := "IS"
  offsetOnly := "LIMIT -1 OFFSET "

def duckdb : Dialect where
  name := "duckdb"
  types :=
    { core := ⟨"BIGINT", "DOUBLE", "VARCHAR", "BOOLEAN", "DATE", "TIMESTAMP", "BLOB"⟩
      aliases := [
        ("INTEGER", .integer), ("INT", .integer), ("TINYINT", .integer), ("SMALLINT", .integer),
        ("HUGEINT", .integer), ("UTINYINT", .integer), ("USMALLINT", .integer),
        ("UINTEGER", .integer), ("UBIGINT", .integer), ("FLOAT", .real), ("REAL", .real),
        ("DECIMAL", .real), ("NUMERIC", .real), ("TEXT", .string), ("STRING", .string),
        ("BOOL", .boolean), ("TIMESTAMP WITH TIME ZONE", .timestamp),
        ("TIMESTAMPTZ", .timestamp), ("DATETIME", .timestamp), ("BYTEA", .blob)] }

-- Names stand between grave accents. The backslash escapes in names and texts, and
-- LIKE takes it for its escape character without being told.
def bigquery : Dialect where
  name := "bigquery"
  types :=
    { core := ⟨"INT64", "FLOAT64", "STRING", "BOOL", "DATE", "TIMESTAMP", "BYTES"⟩
      aliases := [
        ("INTEGER", .integer), ("INT", .integer), ("FLOAT", .real), ("NUMERIC", .real),
        ("BIGNUMERIC", .real), ("BOOLEAN", .boolean), ("DATETIME", .timestamp)] }
  identifiers := ⟨'\x60', true, '\\'⟩
  texts := ⟨'\'', true, '\\'⟩
  likeEscape := ""

-- The backslash escapes in texts, the escape character of LIKE included.
def snowflake : Dialect where
  name := "snowflake"
  types :=
    { core := ⟨"NUMBER", "FLOAT", "TEXT", "BOOLEAN", "DATE", "TIMESTAMP_NTZ", "BINARY"⟩
      aliases := [
        ("INTEGER", .integer), ("INT", .integer), ("BIGINT", .integer), ("FIXED", .integer),
        ("DOUBLE", .real), ("REAL", .real), ("DECIMAL", .real), ("VARCHAR", .string),
        ("STRING", .string), ("TIMESTAMP", .timestamp), ("TIMESTAMP_LTZ", .timestamp),
        ("TIMESTAMP_TZ", .timestamp), ("DATETIME", .timestamp), ("VARBINARY", .blob)] }
  texts := ⟨'\'', true, '\''⟩
  likeEscape := " ESCAPE '\\\\'"

-- A subquery takes no offset, so pages are cut by row numbers.
def presto : Dialect where
  name := "presto"
  types :=
    { core := ⟨"BIGINT", "DOUBLE", "VARCHAR", "BOOLEAN", "DATE", "TIMESTAMP", "VARBINARY"⟩
      aliases := [
        ("INTEGER", .integer), ("INT", .integer), ("SMALLINT", .integer), ("TINYINT", .integer),
        ("REAL", .real), ("FLOAT", .real), ("DECIMAL", .real), ("CHAR", .string),
        ("STRING", .string), ("TIMESTAMP WITH TIME ZONE", .timestamp)] }
  paging := .rowNumber

def all : List Dialect := [sqlite, duckdb, bigquery, snowflake, presto]

-- A dialect by its name in capitals or not; athena speaks presto.
def named? (name : String) : Option Dialect :=
  let lower := String.ofList (name.toList.map Char.toLower)
  if lower = "athena" then some presto else all.find? fun dialect => dialect.name == lower

end PivotQuery.Dialect
