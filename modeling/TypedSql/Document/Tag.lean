import TypedSql.Document.Decoder
import TypedSql.Options
import TypedSql.Tree.Operator

namespace TypedSql

instance : Tagged NameKind where
  all := NameKind.all
  tag
    | .table => "table"
    | .field => "field"
    | .outputAlias => "alias"
    | .parameter => "parameter"
    | .jsonKey => "json_key"

instance : Tagged Dialect where
  all := Dialect.all
  tag := Dialect.tag

instance : Tagged PlaceholderStyle where
  all := [.named, .numbered]
  tag
    | .named => "named"
    | .numbered => "numbered"

instance : Tagged Operation where
  all := [.select, .insert, .update, .delete, .count]
  tag
    | .select => "select"
    | .insert => "insert"
    | .update => "update"
    | .delete => "delete"
    | .count => "count"

instance : Tagged Connective where
  all := [.and, .or]
  tag
    | .and => "and"
    | .or => "or"

instance : Tagged Direction where
  all := [.asc, .desc]
  tag
    | .asc => "asc"
    | .desc => "desc"

instance : Tagged NullsPlacement where
  all := [.first, .last]
  tag
    | .first => "first"
    | .last => "last"

instance : Tagged Operator where
  all := [.eq, .ne, .gt, .gte, .lt, .lte, .like, .notLike, .iLike, .notILike, .isIn, .notIn,
    .isNull, .isNotNull, .exists, .notExists]
  tag
    | .eq => "eq"
    | .ne => "ne"
    | .gt => "gt"
    | .gte => "gte"
    | .lt => "lt"
    | .lte => "lte"
    | .like => "like"
    | .notLike => "not_like"
    | .iLike => "i_like"
    | .notILike => "not_i_like"
    | .isIn => "in"
    | .notIn => "not_in"
    | .isNull => "is_null"
    | .isNotNull => "is_not_null"
    | .exists => "exists"
    | .notExists => "not_exists"

instance : Tagged JoinKind where
  all := [.inner, .left, .right, .full, .cross]
  tag
    | .inner => "inner"
    | .left => "left"
    | .right => "right"
    | .full => "full"
    | .cross => "cross"

instance : Tagged SetOperation where
  all := [.union, .unionAll, .intersect, .intersectAll, .except, .exceptAll]
  tag
    | .union => "union"
    | .unionAll => "union_all"
    | .intersect => "intersect"
    | .intersectAll => "intersect_all"
    | .except => "except"
    | .exceptAll => "except_all"

instance : Tagged LockStrength where
  all := [.update, .share]
  tag
    | .update => "update"
    | .share => "share"

instance : Tagged LockWait where
  all := [.wait, .noWait, .skipLocked]
  tag
    | .wait => "wait"
    | .noWait => "no_wait"
    | .skipLocked => "skip_locked"

instance : Tagged AggregateKind where
  all := [.sum, .avg, .min, .max, .count, .countDistinct]
  tag
    | .sum => "sum"
    | .avg => "avg"
    | .min => "min"
    | .max => "max"
    | .count => "count"
    | .countDistinct => "count_distinct"

instance : Tagged MathFunction where
  all := [.round, .floor, .ceil, .abs, .power, .sqrt]
  tag
    | .round => "round"
    | .floor => "floor"
    | .ceil => "ceil"
    | .abs => "abs"
    | .power => "power"
    | .sqrt => "sqrt"

instance : Tagged CastType where
  all := [.text, .integer, .bigInt, .numeric, .double, .boolean, .date, .timestamp, .json,
    .uuid]
  tag
    | .text => "text"
    | .integer => "integer"
    | .bigInt => "big_int"
    | .numeric => "numeric"
    | .double => "double"
    | .boolean => "boolean"
    | .date => "date"
    | .timestamp => "timestamp"
    | .json => "json"
    | .uuid => "uuid"

instance : Tagged BinaryOp where
  all := [.add, .sub, .mul, .div, .mod, .concat, .l2Distance, .cosineDistance, .innerProduct]
  tag
    | .add => "add"
    | .sub => "sub"
    | .mul => "mul"
    | .div => "div"
    | .mod => "mod"
    | .concat => "concat"
    | .l2Distance => "l2_distance"
    | .cosineDistance => "cosine_distance"
    | .innerProduct => "inner_product"

instance : Tagged FrameUnits where
  all := [.rows, .range]
  tag
    | .rows => "rows"
    | .range => "range"

end TypedSql
