import TableModels.Typing.FieldType

/-! The column types that a database reports, by lower-case name, and how their values are typed. Money
is formatted by locale and stays text. -/

namespace TableModels.Typing

private def jsonObject : FieldType := .dict .any

def catalog : List (String × FieldType) :=
  [("int2", .int), ("int4", .int), ("int8", .int), ("smallint", .int), ("integer", .int), ("int", .int),
    ("bigint", .int), ("serial2", .int), ("serial4", .int), ("serial8", .int), ("smallserial", .int),
    ("serial", .int), ("bigserial", .int), ("float4", .float), ("float8", .float), ("float", .float),
    ("real", .float), ("double precision", .float), ("numeric", .decimal), ("decimal", .decimal), ("money", .str),
    ("text", .str), ("varchar", .str), ("character varying", .str), ("char", .str), ("character", .str),
    ("bpchar", .str), ("name", .str), ("citext", .str), ("bytea", .bytes), ("date", .date),
    ("timestamp", .datetime), ("timestamptz", .datetime), ("timestamp without time zone", .datetime),
    ("timestamp with time zone", .datetime), ("time", .time), ("timetz", .time), ("time without time zone", .time),
    ("time with time zone", .time), ("interval", .timedelta), ("bool", .bool), ("boolean", .bool), ("point", .str),
    ("line", .str), ("lseg", .str), ("box", .str), ("path", .str), ("polygon", .str), ("circle", .str),
    ("inet", .str), ("cidr", .str), ("macaddr", .str), ("macaddr8", .str), ("bit", .str), ("bit varying", .str),
    ("varbit", .str), ("tsvector", .str), ("tsquery", .str), ("uuid", .uuid), ("xml", .str), ("json", jsonObject),
    ("jsonb", jsonObject), ("int4range", .str), ("int8range", .str), ("numrange", .str), ("tsrange", .str),
    ("tstzrange", .str), ("daterange", .str), ("int4multirange", .str), ("int8multirange", .str),
    ("nummultirange", .str), ("tsmultirange", .str), ("tstzmultirange", .str), ("datemultirange", .str),
    ("oid", .int), ("regclass", .str), ("regcollation", .str), ("regconfig", .str), ("regdictionary", .str),
    ("regnamespace", .str), ("regoper", .str), ("regoperator", .str), ("regproc", .str), ("regprocedure", .str),
    ("regrole", .str), ("regtype", .str), ("pg_lsn", .str), ("void", .none), ("record", jsonObject),
    ("vector", .list .float), ("geometry", .str), ("geography", .str), ("ltree", .str), ("lquery", .str),
    ("ltxtquery", .str), ("hstore", .dict .str)]

def catalogued? (name : String) : Option FieldType := catalog.lookup name

/-- Types of semi-structured objects, whose fields always spell out their column. -/
def objectTypes : List String := ["json", "jsonb"]

/-- Types that can hold a reference to another row. -/
def identifierTypes : List String :=
  ["uuid", "int2", "int4", "int8", "smallint", "integer", "int", "bigint", "serial2", "serial4", "serial8",
    "smallserial", "serial", "bigserial"]

end TableModels.Typing
